/-
Which tests are shown as examples. Candidates are the test files of near packages
that have their source file beside them; a package is near when its import path
begins with the text of the function's own or of one up to two levels above it
(`mem_candidates_iff`). Candidates are the paths of locations, which are the same
only when the locations are; so none comes twice, however paths are compared.

The examples are a sample of the candidates without replacement, and since a loaded
file can be read, it is always there. The test file of the function itself is the
one beside its source file; it comes last, unless it is in the sample or there is
none.
-/
import Assay.Examples
import Assay.Proofs.Focal.Reach
import Assay.Proofs.Random.Sample
import Assay.Proofs.Source.Packages
import Assay.Proofs.TestPath

namespace Assay.ExampleTest

open Source Text

variable {disk : Disk} {path query : String} {module : Module} {target : Focal.Target}

-- ============================================================= ancestors

/-- An import path and those above it: going up a level leaves out the last
segment. -/
inductive Above (id : List Char) : Nat → List Char → Prop where
  | here : Above id 0 id
  | up {level : Nat} {path segment : List Char} (below : Above id level (path ++ '/' :: segment))
      (hsegment : '/' ∉ segment) : Above id (level + 1) path

/-- What is above a path are its first segments. -/
theorem above_iff {id path : List Char} {level : Nat} :
    Above id level path ↔ ∃ kept dropped, splitAt (· == '/') id = kept ++ dropped
      ∧ dropped.length = level ∧ kept ≠ [] ∧ path = join ['/'] kept := by
  constructor
  · intro habove
    induction habove with
    | here =>
        exact ⟨_, [], (List.append_nil _).symm, rfl, splitAt_ne_nil _ _,
          (join_splitAt '/' id).symm⟩
    | @up level path segment below hsegment ih =>
        obtain ⟨kept, dropped, hsplit, hlength, hsome, hpath⟩ := ih
        have hfree : ∀ c ∈ segment, (c == '/') = false := by
          intro c hmem
          rw [beq_eq_false_iff_ne]
          exact fun h => hsegment (h ▸ hmem)
        have hkept : ∀ part ∈ kept, ∀ c ∈ part, (c == '/') = false := fun part hmem =>
          free_of_mem_splitAt (by rw [hsplit]; exact List.mem_append_left _ hmem)
        have hjoined : splitAt (· == '/') (join ['/'] kept) = kept := splitAt_join rfl hsome hkept
        have hparts : kept = splitAt (· == '/') path ++ [segment] := by
          rw [← hjoined, ← hpath, splitAt_append path rfl, splitAt_free hfree]
        refine ⟨_, segment :: dropped, ?_, by rw [List.length_cons, hlength],
          splitAt_ne_nil _ _, (join_splitAt '/' path).symm⟩
        rw [hsplit, hparts, List.append_assoc, List.singleton_append]
  · rintro ⟨kept, dropped, hsplit, rfl, hsome, rfl⟩
    induction dropped generalizing kept with
    | nil =>
        rw [List.append_nil] at hsplit
        rw [← hsplit, join_splitAt]
        exact Above.here
    | cons segment dropped ih =>
        have hbelow := ih (kept ++ [segment])
          (by rw [hsplit, List.append_assoc, List.singleton_append]) (by simp)
        have hmem : segment ∈ splitAt (· == '/') id := by simp [hsplit]
        rw [join_concat _ hsome, List.append_assoc, List.singleton_append] at hbelow
        refine Above.up hbelow fun hslash => ?_
        have hfree := free_of_mem_splitAt hmem '/' hslash
        cases hfree

theorem mem_ancestors_iff {ancestor id : String} {levels : Nat} :
    ancestor ∈ ancestors id levels ↔ ∃ level < levels, Above id.toList level ancestor.toList := by
  unfold ancestors
  rw [List.mem_map]
  constructor
  · rintro ⟨level, hlevel, rfl⟩
    rw [List.mem_range, Nat.lt_min] at hlevel
    refine ⟨level, hlevel.1, above_iff.mpr ⟨_, _, (List.take_append_drop _ _).symm, ?_, ?_,
      String.toList_ofList⟩⟩
    · rw [List.length_drop]
      omega
    · rw [Ne, List.take_eq_nil_iff, not_or]
      exact ⟨by omega, splitAt_ne_nil _ _⟩
  · rintro ⟨level, hlevel, habove⟩
    obtain ⟨kept, dropped, hsplit, rfl, hsome, hpath⟩ := above_iff.mp habove
    have hkept := List.length_pos_iff.mpr hsome
    refine ⟨dropped.length, ?_, ?_⟩
    · rw [List.mem_range, hsplit, List.length_append]
      omega
    · rw [← String.toList_inj, hpath, String.toList_ofList, hsplit, List.length_append,
        Nat.add_sub_cancel, List.take_left]

-- ============================================================ candidates

/-- A package is near an import path: its own path begins with the text of that
path, or of a path that is at most two levels above. -/
def Near (id : String) (package : Package) : Prop :=
  ∃ level ≤ 2, ∃ ancestor, Above id.toList level ancestor ∧ ancestor <+: package.id.toList

/-- The path is that of a test file in the directory of a near package, with its
source file beside it. -/
def IsCandidate (module : Module) (id path : String) : Prop :=
  ∃ package ∈ module.allPackages, Near id package ∧ ∃ directory stem,
    package.directory = Disk.pathOf directory ∧ path = Disk.pathOf (directory ++ [testName stem])
      ∧ (∃ content, module.disk.entry? (directory ++ [testName stem]) = some (.file content))
      ∧ ∃ content, module.disk.entry? (directory ++ [sourceName stem]) = some (.file content)

theorem isNear_iff {id : String} {package : Package} :
    isNear (ancestors id nearLevels) package = true ↔ Near id package := by
  unfold isNear Near
  rw [List.any_eq_true]
  constructor
  · rintro ⟨ancestor, hmem, hbegins⟩
    obtain ⟨level, hlevel, habove⟩ := mem_ancestors_iff.mp hmem
    obtain ⟨rest, hrest⟩ := eq_append_of_beginsWith hbegins
    exact ⟨level, Nat.le_of_lt_succ hlevel, _, habove, rest, hrest.symm⟩
  · rintro ⟨level, hlevel, ancestor, habove, rest, hrest⟩
    refine ⟨String.ofList ancestor, mem_ancestors_iff.mpr ⟨level, Nat.lt_succ_of_le hlevel, ?_⟩, ?_⟩
    · rwa [String.toList_ofList]
    · rw [String.toList_ofList, ← hrest, beginsWith, after?_append]
      rfl

/-- The packages of a loaded module are those of directories of its disk. -/
theorem packageOf_of_load (hdisk : disk.WellFormed) (hload : load disk path = .ok module) :
    module.disk = disk ∧ ∃ root, ∀ package ∈ module.allPackages, ∃ directory,
      disk.Rooted directory ∧ disk.entry? directory = some .directory
        ∧ PackageOf disk module.path root directory package := by
  obtain ⟨root, modulePath, files, -, hroot, hentry, hparsed, rfl⟩ := parsed_of_load hdisk hload
  refine ⟨rfl, root, fun package hmem => ?_⟩
  obtain ⟨directory, hdirectory, rfl⟩ := (hparsed.mem_allPackages hdisk).mp hmem
  obtain ⟨hadmitted, -⟩ := (hparsed.mem_directories_iff hdisk hroot hentry).mp hdirectory
  obtain ⟨hrooted, hthere, -⟩ := hadmitted.rooted hroot hentry
  exact ⟨directory, hrooted, hthere, hparsed.packageOf modulePath hdisk hroot hentry hadmitted⟩

/-- A Go file in the directory of a package is one of its files, and can be read. -/
theorem exists_file_of_place (hdisk : disk.WellFormed) (hload : load disk path = .ok module)
    {package : Package} (hpackage : package ∈ module.allPackages) {directory : Location}
    {name : String} (hplace : package.directory = Disk.pathOf directory)
    (hgo : HoldsGo disk directory name) :
    disk.Rooted directory ∧ disk.entry? directory = some .directory
      ∧ ∃ file ∈ package.files, file.path = Disk.pathOf (directory ++ [name])
        ∧ disk.readText file.path = .ok file.source := by
  obtain ⟨-, root, hpackages⟩ := packageOf_of_load hdisk hload
  obtain ⟨other, hrooted, hdirectory, hof⟩ := hpackages package hpackage
  obtain rfl : other = directory := by
    refine Disk.parts_pathOf_inj
      (hdisk.plain_of_ne_none (by rw [hdirectory]; exact Option.some_ne_none _))
      (fun name hmem => hgo.plain hdisk name (List.mem_append_left _ hmem)) ?_
    rw [← hplace, hof.directory_eq]
  obtain ⟨file, hfile, hpath⟩ := hof.exists_file hgo
  exact ⟨hrooted, hdirectory, file, hfile, hpath, hof.source_eq file hfile⟩

/-- A test file of a directory has its source file beside it. -/
theorem hasSubject_iff {directory : Location} {stem : List Char} {file : File}
    (hplain : ∀ name ∈ directory ++ [testName stem], Path.Plain name)
    (hrooted : module.disk.Rooted directory)
    (hdirectory : module.disk.entry? directory = some .directory)
    (hpath : file.path = Disk.pathOf (directory ++ [testName stem])) :
    hasSubject module file = true
      ↔ ∃ content, module.disk.entry? (directory ++ [sourceName stem]) = some (.file content) := by
  have hsource : ∀ name ∈ directory ++ [sourceName stem], Path.Plain name :=
    Disk.plain_renamed hplain (plain_sourceName (slashFree_of_testName (hplain _ (by simp))))
  unfold hasSubject
  rw [hpath, testedPathFor?_pathOf hplain]
  dsimp only
  rw [Disk.isFile_pathOf_iff hsource,
    and_iff_right (Disk.rooted_concat_iff.mpr ⟨hrooted, hdirectory⟩)]

/-- A test file's name is a stem and the ending. -/
theorem exists_testName {name : String} (hends : endsWith File.testEnding name.toList = true) :
    ∃ stem, name = testName stem := by
  obtain ⟨stem, hstem⟩ := endsWith_iff.mp hends
  exact ⟨stem, String.toList_inj.mp (hstem.trans (toList_testName stem).symm)⟩

theorem isGoName_testName (stem : List Char) : IsGoName (testName stem) :=
  ⟨stem ++ "_test".toList, by simp, by rw [toList_testName, List.append_assoc]; rfl⟩

/-- The candidates of a loaded module. -/
theorem mem_candidates_iff (hdisk : disk.WellFormed) (hload : load disk path = .ok module)
    {id test : String} :
    test ∈ candidates module (ancestors id nearLevels) ↔ IsCandidate module id test := by
  obtain ⟨rfl, root, hpackages⟩ := packageOf_of_load hdisk hload
  unfold candidates
  rw [List.mem_eraseDups, List.mem_mergeSort, List.mem_map]
  constructor
  · rintro ⟨file, hmem, rfl⟩
    obtain ⟨hmem, hsubject⟩ := List.mem_filter.mp hmem
    obtain ⟨package, hmem, hfile⟩ := List.mem_flatMap.mp hmem
    obtain ⟨hpackage, hnear⟩ := List.mem_filter.mp hmem
    obtain ⟨hfile, htest⟩ := List.mem_filter.mp hfile
    obtain ⟨directory, hrooted, hdirectory, hof⟩ := hpackages package hpackage
    obtain ⟨name, hgo, hpath⟩ := hof.exists_name hfile
    have hplain := hgo.plain hdisk
    rw [isTest_eq, hpath, isTestPath_pathOf hplain, isTestLocation_concat] at htest
    obtain ⟨stem, rfl⟩ := exists_testName htest
    exact ⟨package, hpackage, isNear_iff.mp hnear, directory, stem, hof.directory_eq, hpath, hgo.2,
      (hasSubject_iff hplain hrooted hdirectory hpath).mp hsubject⟩
  · rintro ⟨package, hpackage, hnear, directory, stem, hplace, rfl, hcontent, hsource⟩
    have hgo : HoldsGo module.disk directory (testName stem) := ⟨isGoName_testName stem, hcontent⟩
    have hplain := hgo.plain hdisk
    obtain ⟨hrooted, hdirectory, file, hfile, hpath, -⟩ :=
      exists_file_of_place hdisk hload hpackage hplace hgo
    have htest : file.isTest = true := by
      rw [isTest_eq, hpath, isTestPath_pathOf hplain, isTestLocation_concat]
      exact endsWith_iff.mpr ⟨stem, toList_testName stem⟩
    refine ⟨file, List.mem_filter.mpr ⟨List.mem_flatMap.mpr ⟨package, ?_, ?_⟩, ?_⟩, hpath⟩
    · exact List.mem_filter.mpr ⟨hpackage, isNear_iff.mpr hnear⟩
    · exact List.mem_filter.mpr ⟨hfile, htest⟩
    · exact (hasSubject_iff hplain hrooted hdirectory hpath).mpr hsource

/-- A candidate is the path of a location of the disk, and can be read. -/
theorem IsCandidate.exists_place (hdisk : disk.WellFormed) (hload : load disk path = .ok module)
    {id test : String} (hcandidate : IsCandidate module id test) :
    ∃ location, (∀ name ∈ location, Path.Plain name) ∧ test = Disk.pathOf location
      ∧ ∃ content, disk.readText test = .ok content := by
  obtain ⟨hsame, -⟩ := packageOf_of_load hdisk hload
  obtain ⟨package, hpackage, -, directory, stem, hplace, rfl, hcontent, -⟩ := hcandidate
  rw [hsame] at hcontent
  have hgo : HoldsGo disk directory (testName stem) := ⟨isGoName_testName stem, hcontent⟩
  obtain ⟨-, -, file, -, hpath, hread⟩ := exists_file_of_place hdisk hload hpackage hplace hgo
  rw [hpath] at hread
  exact ⟨_, hgo.plain hdisk, rfl, _, hread⟩

/-- Candidates whose paths are the same are one. -/
theorem eq_of_same (hdisk : disk.WellFormed) (hload : load disk path = .ok module)
    {id test other : String} (htest : IsCandidate module id test)
    (hother : IsCandidate module id other) (hsame : Path.same test other = true) :
    test = other := by
  obtain ⟨location, hplain, rfl, -⟩ := htest.exists_place hdisk hload
  obtain ⟨place, hplace, rfl, -⟩ := hother.exists_place hdisk hload
  rw [(Disk.same_pathOf_iff hplain hplace).mp hsame]

-- =============================================================== reading

theorem read_eq_ok_iff {test : String} {shown : ExampleTest} :
    read disk test = .ok shown ↔ shown.path = test ∧ disk.readText test = .ok shown.content := by
  unfold read
  cases disk.readText test with
  | error fault => simp
  | ok content =>
      constructor
      · intro h
        obtain rfl := Except.ok.inj h
        exact ⟨rfl, rfl⟩
      · rintro ⟨rfl, hcontent⟩
        obtain rfl := Except.ok.inj hcontent
        rfl

/-- The tests that are read are those of the paths, in their order. -/
theorem mapM_read {tests : List String} {examples : List ExampleTest}
    (hread : tests.mapM (read disk) = .ok examples) : examples.map (·.path) = tests
      ∧ ∀ shown ∈ examples, disk.readText shown.path = .ok shown.content := by
  induction tests generalizing examples with
  | nil =>
      obtain rfl := Except.ok.inj hread
      exact ⟨rfl, fun shown hmem => absurd hmem List.not_mem_nil⟩
  | cons test tests ih =>
      obtain ⟨shown, rest, hshown, hrest, rfl⟩ := mapM_cons_eq_ok_iff.mp hread
      obtain ⟨hpaths, hcontents⟩ := ih hrest
      obtain ⟨rfl, hcontent⟩ := read_eq_ok_iff.mp hshown
      exact ⟨by rw [List.map_cons, hpaths], List.forall_mem_cons.mpr ⟨hcontent, hcontents⟩⟩

theorem exists_mapM_read {tests : List String}
    (htests : ∀ test ∈ tests, ∃ content, disk.readText test = .ok content) :
    ∃ examples, tests.mapM (read disk) = .ok examples := by
  refine exists_mapM_ok fun test htest => ?_
  obtain ⟨content, hcontent⟩ := htests test htest
  exact ⟨⟨test, content⟩, read_eq_ok_iff.mpr ⟨rfl, hcontent⟩⟩

-- ============================================================= selection

/-- The paths that are chosen for a function. -/
def chosen (module : Module) (target : Focal.Target) (count : Nat) (seed : UInt64) : List String :=
  Random.choose (Random.streamOf seed) (candidates module (ancestors target.package.id nearLevels))
    count

theorem select_without (module : Module) (target : Focal.Target) (count : Nat) (seed : UInt64) :
    select module target ⟨count, false, seed⟩
      = (chosen module target count seed).mapM (read module.disk) := by
  show ((chosen module target count seed).mapM (read module.disk)).bind Except.ok = _
  cases (chosen module target count seed).mapM (read module.disk) <;> rfl

theorem select_with (module : Module) (target : Focal.Target) (count : Nat) (seed : UInt64) :
    select module target ⟨count, true, seed⟩
      = (select module target ⟨count, false, seed⟩).bind
        (withOwn module.disk (testPathFor target.declaration.file.path)) := by
  rw [select_without]
  rfl

/-- The function's own test file comes in when it is there and not among the
others, and nothing else does. -/
theorem withOwn_of_pathOf {directory : Location} {name : String} {picked all : List ExampleTest}
    (hplain : ∀ part ∈ directory ++ [name], Path.Plain part)
    (hpicked : ∀ shown ∈ picked, ∃ location, (∀ part ∈ location, Path.Plain part)
      ∧ shown.path = Disk.pathOf location)
    (hreadable : (∃ content, disk.entry? (directory ++ [name]) = some (.file content)) →
      ∃ text, disk.readText (Disk.pathOf (directory ++ [name])) = .ok text)
    (hown : withOwn disk (Disk.pathOf (directory ++ [name])) picked = .ok all) :
    ((∃ content, disk.entry? (directory ++ [name]) = some (.file content))
        ∧ (∀ shown ∈ picked, shown.path ≠ Disk.pathOf (directory ++ [name])) →
      ∃ text, disk.readText (Disk.pathOf (directory ++ [name])) = .ok text
        ∧ all = picked ++ [⟨Disk.pathOf (directory ++ [name]), text⟩])
    ∧ (¬ ((∃ content, disk.entry? (directory ++ [name]) = some (.file content))
        ∧ ∀ shown ∈ picked, shown.path ≠ Disk.pathOf (directory ++ [name])) →
      all = picked) := by
  have hsame : (picked.any fun kept => Path.same kept.path (Disk.pathOf (directory ++ [name])))
      = true ↔ ∃ shown ∈ picked, shown.path = Disk.pathOf (directory ++ [name]) := by
    rw [List.any_eq_true]
    refine exists_congr fun shown => and_congr_right fun hmem => ?_
    obtain ⟨location, hlocation, hpath⟩ := hpicked shown hmem
    rw [hpath, Disk.same_pathOf_iff hlocation hplain]
    exact ⟨fun h => by rw [h], fun h => Disk.parts_pathOf_inj hlocation hplain (by rw [h])⟩
  unfold withOwn at hown
  split at hown
  · next hin =>
      obtain ⟨shown, hmem, hpath⟩ := hsame.mp hin
      obtain rfl := Except.ok.inj hown
      exact ⟨fun h => absurd hpath (h.2 shown hmem), fun _ => rfl⟩
  · next hout =>
      have hnew : ∀ shown ∈ picked, shown.path ≠ Disk.pathOf (directory ++ [name]) :=
        fun shown hmem hpath => hout (hsame.mpr ⟨shown, hmem, hpath⟩)
      split at hown
      · next text htext =>
          obtain rfl := Except.ok.inj hown
          refine ⟨fun _ => ⟨text, htext, rfl⟩, fun hnot => absurd ⟨?_, hnew⟩ hnot⟩
          obtain ⟨location, hlocate, hentry⟩ := Disk.locate_of_readText htext
          obtain ⟨rfl, -⟩ := (Disk.locate_pathOf_iff hplain).mp hlocate
          exact ⟨_, hentry⟩
      · next hmissing =>
          obtain rfl := Except.ok.inj hown
          refine ⟨fun h => ?_, fun _ => rfl⟩
          obtain ⟨text, htext⟩ := hreadable h.1
          rw [hmissing] at htext
          cases htext
      · cases hown

/-- The examples are so many of the candidates, each at most once, with what their
files hold. -/
structure IsSampleOf (disk : Disk) (near : List String) (count : Nat)
    (examples : List ExampleTest) : Prop where
  length_eq : examples.length = min count near.length
  distinct : examples.Pairwise fun a b => Path.same a.path b.path = false
  among : ∀ shown ∈ examples, shown.path ∈ near
  content_eq : ∀ shown ∈ examples, disk.readText shown.path = .ok shown.content
  all : near.length ≤ count → ∀ test ∈ near, ∃ shown ∈ examples, shown.path = test

/-- What is read of a choice of candidates is a sample of them. -/
theorem isSampleOf_mapM_read {near : List String} {count : Nat} {stream : Random.Stream}
    {examples : List ExampleTest} (hnodup : near.Nodup)
    (hsame : ∀ test ∈ near, ∀ other ∈ near, Path.same test other = true → test = other)
    (hread : (Random.choose stream near count).mapM (read disk) = .ok examples) :
    IsSampleOf disk near count examples := by
  obtain ⟨hpaths, hcontents⟩ := mapM_read hread
  have hsub := Random.choose_subperm stream near count
  have hmem (shown : ExampleTest) (h : shown ∈ examples) : shown.path ∈ near :=
    hsub.subset (hpaths ▸ List.mem_map_of_mem h)
  refine ⟨?_, ?_, hmem, hcontents, fun hcount test htest => ?_⟩
  · rw [← List.length_map (f := fun shown : ExampleTest => shown.path), hpaths,
      Random.length_choose]
  · have hdistinct : (examples.map (·.path)).Nodup := by
      obtain ⟨part, hperm, hpart⟩ := hsub
      rw [hpaths, ← hperm.nodup_iff]
      exact hnodup.sublist hpart
    refine (List.pairwise_map.mp hdistinct).imp_of_mem fun ha hb hne => ?_
    exact Bool.eq_false_iff.mpr fun h => hne (hsame _ (hmem _ ha) _ (hmem _ hb) h)
  · have hchosen := (Random.choose_perm stream hcount).mem_iff.mpr htest
    rw [← hpaths] at hchosen
    exact List.mem_map.mp hchosen

/-- The examples for a function are a sample of the candidates, and always found.
With the function's own test they are followed by it, exactly when the file beside
the function's file is there and not among them. -/
theorem select_samples {file : String} (hdisk : disk.WellFormed)
    (hload : load disk path = .ok module) (hresolve : Focal.resolve module file query = .ok target)
    (count : Nat) (seed : UInt64) :
    ∃ near examples, near.Nodup
      ∧ (∀ test, test ∈ near ↔ IsCandidate module target.package.id test)
      ∧ select module target ⟨count, false, seed⟩ = .ok examples
      ∧ IsSampleOf disk near count examples
      ∧ ∃ directory stem, (∀ name ∈ directory ++ [sourceName stem], Path.Plain name)
        ∧ target.declaration.file.path = Disk.pathOf (directory ++ [sourceName stem])
        ∧ ∀ all, select module target ⟨count, true, seed⟩ = .ok all →
          ((∃ content, disk.entry? (directory ++ [testName stem]) = some (.file content))
              ∧ (∀ shown ∈ examples, shown.path ≠ Disk.pathOf (directory ++ [testName stem])) →
            ∃ text, disk.readText (Disk.pathOf (directory ++ [testName stem])) = .ok text
              ∧ all = examples ++ [⟨Disk.pathOf (directory ++ [testName stem]), text⟩])
          ∧ (¬ ((∃ content, disk.entry? (directory ++ [testName stem]) = some (.file content))
              ∧ ∀ shown ∈ examples, shown.path ≠ Disk.pathOf (directory ++ [testName stem])) →
            all = examples) := by
  obtain ⟨rfl, root, hpackages⟩ := packageOf_of_load hdisk hload
  have hnear {test : String} : test ∈ candidates module (ancestors target.package.id nearLevels)
      ↔ IsCandidate module target.package.id test := mem_candidates_iff hdisk hload
  have hchosen {test : String} (htest : test ∈ chosen module target count seed) :=
    (hnear.mp ((Random.choose_subperm _ _ _).subset htest)).exists_place hdisk hload
  obtain ⟨examples, hread⟩ : ∃ examples,
      (chosen module target count seed).mapM (read module.disk) = .ok examples :=
    exists_mapM_read fun test htest => by
      obtain ⟨-, -, -, hcontent⟩ := hchosen htest
      exact hcontent
  have hselect := (select_without module target count seed).trans hread
  have hsample : IsSampleOf module.disk (candidates module (ancestors target.package.id nearLevels))
      count examples := by
    refine isSampleOf_mapM_read (nodup_eraseDups _) (fun test htest other hother => ?_) hread
    exact eq_of_same hdisk hload (hnear.mp htest) (hnear.mp hother)
  refine ⟨_, examples, nodup_eraseDups _, fun test => hnear, hselect, hsample, ?_⟩
  -- the function's file is one of its package, and its test file would be one too
  obtain ⟨package, hpackage, source, hsource, node, -, hmade⟩ := Focal.target?_of_resolve hresolve
  obtain ⟨-, -, hdeclaration, -⟩ := Focal.eq_of_target? hmade
  obtain ⟨directory, hrooted, hdirectory, hof⟩ := hpackages package hpackage
  obtain ⟨name, hgo, hpath⟩ := hof.exists_name hsource
  obtain ⟨stem, hstem, hname⟩ := hgo.1
  obtain rfl : name = sourceName stem :=
    String.toList_inj.mp (hname.trans (toList_sourceName stem).symm)
  have hplain := hgo.plain hdisk
  have hfile : target.declaration.file.path = Disk.pathOf (directory ++ [sourceName stem]) := by
    rw [hdeclaration]
    exact hpath
  have htest : ∀ part ∈ directory ++ [testName stem], Path.Plain part :=
    Disk.plain_renamed hplain (plain_testName (slashFree_of_sourceName (hplain _ (by simp))))
  refine ⟨directory, stem, hplain, hfile, fun all hall => ?_⟩
  rw [select_with, hselect, hfile, testPathFor_pathOf hplain hstem] at hall
  refine withOwn_of_pathOf htest (fun shown hshown => ?_) (fun hentry => ?_) hall
  · obtain ⟨location, hlocation, hplace, -⟩ :=
      (hnear.mp (hsample.among shown hshown)).exists_place hdisk hload
    exact ⟨location, hlocation, hplace⟩
  · obtain ⟨-, -, own, -, hown, htext⟩ := exists_file_of_place hdisk hload hpackage
      hof.directory_eq ⟨isGoName_testName stem, hentry⟩
    rw [hown] at htext
    exact ⟨_, htext⟩

-- ============================================================== an example

/-- A function deep in a module. Near it are its own package and one that only begins
with the same text; not near is the package at the root. One test has no source
file. -/
def orchardDisk : Disk where
  entries := [(["app"], .directory), (["app", "a"], .directory), (["app", "a", "b"], .directory),
    (["app", "a", "b", "c"], .directory),
    (["app", "a", "b", "c", "sum.go"], .file (.text "package c\n\nfunc Sum() \x7b\x7d\n".toList)),
    (["app", "a", "b", "c", "sum_test.go"], .file (.text "package c\n".toList)),
    (["app", "a", "lost_test.go"], .file (.text "package a\n".toList)),
    (["app", "ab"], .directory), (["app", "ab", "pit.go"], .file (.text "package ab\n".toList)),
    (["app", "ab", "pit_test.go"], .file (.text "package ab\n".toList)),
    (["app", "go.mod"], .file (.text "module app\n".toList)),
    (["app", "main.go"], .file (.text "package main\n".toList)),
    (["app", "main_test.go"], .file (.text "package main\n".toList))]

/-- The module, loaded. -/
def orchard : Module := moduleOf orchardDisk ["app"] "app"
  ([(["app", "a", "b", "c", "sum.go"], "package c\n\nfunc Sum() \x7b\x7d\n".toList),
    (["app", "a", "b", "c", "sum_test.go"], "package c\n".toList),
    (["app", "a", "lost_test.go"], "package a\n".toList),
    (["app", "ab", "pit.go"], "package ab\n".toList),
    (["app", "ab", "pit_test.go"], "package ab\n".toList),
    (["app", "main.go"], "package main\n".toList),
    (["app", "main_test.go"], "package main\n".toList)].filterMap parsedFile?)

/-- The function. -/
def sumTarget : Focal.Target :=
  (Focal.resolve orchard "a/b/c/sum.go" "Sum").toOption.get (by decide +kernel)

theorem packages_orchard : orchard.allPackages.map (fun package => (package.id, package.directory))
    = [("app", "/app"), ("app/a", "/app/a"), ("app/a/b/c", "/app/a/b/c"), ("app/ab", "/app/ab")] := by
  decide +kernel

/-- Two examples are chosen of the two candidates; and without examples, the
function's own test is left. -/
theorem select_samples_orchard : orchardDisk.WellFormed ∧ load orchardDisk "/app" = .ok orchard
    ∧ Focal.resolve orchard "a/b/c/sum.go" "Sum" = .ok sumTarget
    ∧ (∃ examples, select orchard sumTarget ⟨2, false, 7⟩ = .ok examples ∧ examples.length = 2
      ∧ examples.Pairwise fun a b => Path.same a.path b.path = false)
    ∧ select orchard sumTarget ⟨0, true, 7⟩
      = .ok [⟨"/app/a/b/c/sum_test.go", "package c\n".toList⟩] := by
  have hdisk : orchardDisk.WellFormed := by decide +kernel
  have hload : load orchardDisk "/app" = .ok orchard := by
    refine load_of_ordered ?_ ?_ ?_ ?_ ?_ <;> decide +kernel
  have hresolve : Focal.resolve orchard "a/b/c/sum.go" "Sum" = .ok sumTarget :=
    Focal.eq_ok_get _
  obtain ⟨hid, hown⟩ : sumTarget.package.id = "app/a/b/c"
      ∧ testPathFor sumTarget.declaration.file.path = "/app/a/b/c/sum_test.go" := by
    decide +kernel
  have hpackage (id place : String) (hlisted : (id, place) ∈ [("app", "/app"), ("app/a", "/app/a"),
      ("app/a/b/c", "/app/a/b/c"), ("app/ab", "/app/ab")]) :
      ∃ package ∈ orchard.allPackages, package.id = id ∧ package.directory = place := by
    rw [← packages_orchard] at hlisted
    obtain ⟨package, hmem, hsame⟩ := List.mem_map.mp hlisted
    exact ⟨package, hmem, congrArg Prod.fst hsame, congrArg Prod.snd hsame⟩
  have hsum : IsCandidate orchard sumTarget.package.id "/app/a/b/c/sum_test.go" := by
    obtain ⟨package, hmem, hsame, hplace⟩ := hpackage "app/a/b/c" "/app/a/b/c" (by simp)
    refine ⟨package, hmem, ⟨0, by omega, _, Above.here, ?_⟩, ["app", "a", "b", "c"], "sum".toList,
      hplace, by decide +kernel, ⟨_, rfl⟩, ⟨_, rfl⟩⟩
    simp only [hid, hsame, List.prefix_rfl]
  have hpit : IsCandidate orchard sumTarget.package.id "/app/ab/pit_test.go" := by
    obtain ⟨package, hmem, hsame, hplace⟩ := hpackage "app/ab" "/app/ab" (by simp)
    refine ⟨package, hmem, ⟨2, by omega, "app/a".toList, ?_, ?_⟩, ["app", "ab"], "pit".toList,
      hplace, by decide +kernel, ⟨_, rfl⟩, ⟨_, rfl⟩⟩
    · rw [hid]
      have hfirst : Above "app/a/b/c".toList 1 "app/a/b".toList :=
        Above.up (Above.here : Above _ 0 ("app/a/b".toList ++ '/' :: ['c'])) (by decide)
      exact Above.up (hfirst : Above _ 1 ("app/a".toList ++ '/' :: ['b'])) (by decide)
    · rw [hsame]
      decide
  refine ⟨hdisk, hload, hresolve, ?_, ?_⟩
  · obtain ⟨near, examples, -, hnear, hselect, hsample, -⟩ :=
      select_samples hdisk hload hresolve 2 7
    have hboth : ["/app/a/b/c/sum_test.go", "/app/ab/pit_test.go"].Subperm near := by
      refine List.subperm_of_subset (by decide) fun test htest => (hnear test).mpr ?_
      rcases List.mem_cons.mp htest with rfl | htest
      · exact hsum
      · obtain rfl := List.mem_singleton.mp htest
        exact hpit
    refine ⟨examples, hselect, ?_, hsample.distinct⟩
    rw [hsample.length_eq]
    exact Nat.min_eq_left hboth.length_le
  · obtain ⟨near, examples, -, -, hselect, hsample, -⟩ :=
      select_samples hdisk hload hresolve 0 7
    obtain rfl : examples = [] :=
      List.length_eq_zero_iff.mp (hsample.length_eq.trans (Nat.zero_min _))
    have htext : orchard.disk.readText "/app/a/b/c/sum_test.go" = .ok "package c\n".toList := by
      decide +kernel
    rw [select_with, hselect, hown]
    simp [Except.bind, withOwn, htext]

end Assay.ExampleTest
