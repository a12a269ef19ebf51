/-
Where the test file of a source file is, and where the source file of a test file.
Both stand in one directory, with the same stem before their endings, so going from one
to the other exchanges the last name and nothing else. On the parts of a path this is a
correspondence one to one (`testPathFor_one_to_one`); on the paths of locations it holds
of the text as well (`withFileName_pathOf`).
-/
import Assay.Proofs.Source.Directories

namespace Assay.Path

variable {segments : List (List Char)}

/-- Where every segment says something, none is taken off the end. -/
theorem trimmedEnd_eq_self (hbusy : ∀ segment ∈ segments, isIdle segment = false) :
    trimmedEnd segments = segments := by
  refine List.rdropWhile_eq_self_iff.mpr fun hsome => ?_
  rw [hbusy _ (List.getLast_mem hsome)]
  exact Bool.false_ne_true

end Assay.Path

namespace Assay.Disk

open Assay.Path Text

variable {location directory other : Location} {last name : String}

/-- The path of a location is cut into its names. -/
theorem pieces_pathOf (hplain : ∀ name ∈ location, Plain name) (hsome : location ≠ []) :
    pieces (pathOf location) = ⟨['/'], location.map String.toList⟩ := by
  have hfree : ∀ segment ∈ location.map String.toList, ∀ c ∈ segment, (c == '/') = false := by
    intro segment hmem
    obtain ⟨name, hname, rfl⟩ := List.mem_map.mp hmem
    exact (hplain name hname).slashFree
  have hsplit : splitAt (· == '/') (join ['/'] (location.map String.toList))
      = location.map String.toList := splitAt_join rfl (by simpa using hsome) hfree
  unfold pieces
  rw [toList_pathOf]
  exact congrArg (Pieces.mk ['/']) hsplit

/-- The parent of a location's path is the path of the location above, spelled in
the same way. -/
theorem parent?_pathOf_concat (hplain : ∀ name ∈ directory ++ [last], Plain name) :
    parent? (pathOf (directory ++ [last])) = some (pathOf directory) := by
  have hbusy {names : Location} (hnames : ∀ name ∈ names, Plain name) :
      ∀ segment ∈ names.map String.toList, isIdle segment = false := by
    intro segment hmem
    obtain ⟨name, hname, rfl⟩ := List.mem_map.mp hmem
    exact (hnames name hname).busy
  unfold parent?
  rw [pieces_pathOf hplain (by simp)]
  dsimp only
  rw [trimmedEnd_eq_self (hbusy hplain), List.map_append, List.map_singleton,
    List.reverse_append, List.reverse_singleton, List.singleton_append]
  dsimp only
  have habove := hbusy fun name hmem => hplain name (List.mem_append_left _ hmem)
  rw [assemble, List.reverse_reverse, trimmedEnd_eq_self habove]
  refine congrArg some (String.toList_inj.mp ?_)
  rw [String.toList_ofList, toList_pathOf]
  rfl

/-- A plain name can stand for the last one. -/
theorem plain_renamed (hplain : ∀ name ∈ directory ++ [last], Plain name) (hname : Plain name) :
    ∀ part ∈ directory ++ [name], Plain part := by
  intro part hmem
  rcases List.mem_append.mp hmem with hmem | hmem
  · exact hplain part (List.mem_append_left _ hmem)
  · rw [List.mem_singleton.mp hmem]
    exact hname

/-- Another last name leads to the location with that name. -/
theorem withFileName_pathOf (hplain : ∀ name ∈ directory ++ [last], Plain name)
    (hname : Plain name) :
    withFileName (pathOf (directory ++ [last])) name = pathOf (directory ++ [name]) := by
  have hpush := push_pathOf (plain_renamed hplain hname) (List.cons_ne_nil name [])
  unfold withFileName
  rw [fileName?_pathOf hplain, List.getLast?_concat, parent?_pathOf_concat hplain]
  exact hpush

/-- Paths of locations are the same only when the locations are. -/
theorem same_pathOf_iff (hplain : ∀ name ∈ location, Plain name)
    (hother : ∀ name ∈ other, Plain name) :
    Path.same (pathOf location) (pathOf other) = true ↔ location = other := by
  rw [Path.same, beq_iff_eq]
  exact ⟨parts_pathOf_inj hplain hother, fun h => by rw [h]⟩

end Assay.Disk

namespace Assay

open Assay.Path Text

variable {directory : Location} {stem : List Char}

-- ================================================================= names

/-- The name of the source file with a stem. -/
def sourceName (stem : List Char) : String := String.ofList (stem ++ ".go".toList)

/-- The name of the test file with a stem. -/
def testName (stem : List Char) : String := String.ofList (stem ++ testSuffix)

theorem toList_sourceName (stem : List Char) :
    (sourceName stem).toList = stem ++ ['.', 'g', 'o'] := String.toList_ofList

theorem toList_testName (stem : List Char) : (testName stem).toList = stem ++ testSuffix :=
  String.toList_ofList

/-- A stem with an ending is a plain name, when there is no slash in it. -/
theorem plain_sourceName (hfree : ∀ c ∈ stem, (c == '/') = false) : Plain (sourceName stem) := by
  have hlength : 3 ≤ (sourceName stem).toList.length := by
    rw [toList_sourceName, List.length_append]
    exact Nat.le_add_left 3 stem.length
  have hother (short : List Char) (hshort : short.length < 3) :
      (sourceName stem).toList ≠ short := fun h => by
    rw [h] at hlength
    exact Nat.not_lt.mpr hlength hshort
  refine ⟨?_, hother ['.', '.'] (by decide), fun c hmem => ?_⟩
  · rw [isIdle, Bool.or_eq_false_iff, List.isEmpty_eq_false_iff, beq_eq_false_iff_ne]
    exact ⟨hother [] (by decide), hother ['.'] (by decide)⟩
  · rw [toList_sourceName] at hmem
    rcases List.mem_append.mp hmem with hmem | hmem
    · exact hfree c hmem
    · exact beq_eq_false_iff_ne.mpr (ne_of_mem_of_not_mem hmem (by decide))

theorem plain_testName (hfree : ∀ c ∈ stem, (c == '/') = false) : Plain (testName stem) := by
  refine Source.plain_of_endsWith (endsWith_iff.mpr ⟨stem, toList_testName stem⟩) fun c hmem => ?_
  rw [toList_testName] at hmem
  rcases List.mem_append.mp hmem with hmem | hmem
  · exact hfree c hmem
  · exact beq_eq_false_iff_ne.mpr (ne_of_mem_of_not_mem hmem (by decide))

theorem slashFree_of_sourceName (hplain : Plain (sourceName stem)) :
    ∀ c ∈ stem, (c == '/') = false :=
  fun c hmem => hplain.slashFree c (by rw [toList_sourceName]; exact List.mem_append_left _ hmem)

theorem slashFree_of_testName (hplain : Plain (testName stem)) :
    ∀ c ∈ stem, (c == '/') = false :=
  fun c hmem => hplain.slashFree c (by rw [toList_testName]; exact List.mem_append_left _ hmem)

-- ================================================================= paths

variable {path : String}

/-- Go files are those whose name is a stem and the ending. -/
theorem extension?_eq_go_iff : extension? path = some "go"
    ↔ ∃ stem ≠ [], fileName? path = some (sourceName stem) := by
  unfold extension?
  rw [Option.bind_eq_some_iff]
  constructor
  · rintro ⟨name, hname, hgo⟩
    obtain ⟨stem, hstem, htext⟩ := Source.isGoName_iff.mpr hgo
    refine ⟨stem, hstem, hname.trans (congrArg some (String.toList_inj.mp ?_))⟩
    rw [htext, toList_sourceName]
  · rintro ⟨stem, hstem, hname⟩
    exact ⟨_, hname, Source.isGoName_iff.mp ⟨stem, hstem, toList_sourceName stem⟩⟩

/-- The test file of a source file has the stem of its name. -/
theorem testPathFor_of_name (hname : fileName? path = some (sourceName stem))
    (hstem : stem ≠ []) : testPathFor path = withFileName path (testName stem) := by
  have hsplit : splitName (sourceName stem) = (stem, some ['g', 'o']) :=
    splitName_eq_iff.mpr ⟨hstem, toList_sourceName stem, by decide⟩
  unfold testPathFor stem?
  rw [hname, Option.map_some, hsplit]
  dsimp only
  rw [Option.getD_some, ← String.ofList_append]
  rfl

/-- The source file of a test file has the stem of its name. -/
theorem testedPathFor?_of_name (hname : fileName? path = some (testName stem)) :
    testedPathFor? path = some (withFileName path (sourceName stem)) := by
  unfold testedPathFor?
  rw [hname]
  show (before? testSuffix (testName stem).toList).bind _ = _
  rw [before?_eq_some_iff.mpr (toList_testName stem)]
  rfl

theorem plain_testName_of_name (hname : fileName? path = some (sourceName stem)) :
    Plain (testName stem) :=
  plain_testName (slashFree_of_sourceName (plain_fileName? hname))

theorem plain_sourceName_of_name (hname : fileName? path = some (testName stem)) :
    Plain (sourceName stem) :=
  plain_sourceName (slashFree_of_testName (plain_fileName? hname))

/-- The test file of a source file is beside it. -/
theorem testPathFor_pathOf (hplain : ∀ name ∈ directory ++ [sourceName stem], Plain name)
    (hstem : stem ≠ []) : testPathFor (Disk.pathOf (directory ++ [sourceName stem]))
      = Disk.pathOf (directory ++ [testName stem]) := by
  have hname : fileName? (Disk.pathOf (directory ++ [sourceName stem])) = some (sourceName stem) := by
    rw [Disk.fileName?_pathOf hplain, List.getLast?_concat]
  rw [testPathFor_of_name hname hstem]
  exact Disk.withFileName_pathOf hplain (plain_testName_of_name hname)

/-- The source file of a test file is beside it. -/
theorem testedPathFor?_pathOf (hplain : ∀ name ∈ directory ++ [testName stem], Plain name) :
    testedPathFor? (Disk.pathOf (directory ++ [testName stem]))
      = some (Disk.pathOf (directory ++ [sourceName stem])) := by
  have hname : fileName? (Disk.pathOf (directory ++ [testName stem])) = some (testName stem) := by
    rw [Disk.fileName?_pathOf hplain, List.getLast?_concat]
  rw [testedPathFor?_of_name hname]
  exact congrArg some (Disk.withFileName_pathOf hplain (plain_sourceName_of_name hname))

-- ============================================================ one to one

variable {source other test : String}

/-- From a source file to its test file and back. -/
theorem exists_tested (hname : fileName? source = some (sourceName stem)) (hstem : stem ≠ []) :
    ∃ tested, testedPathFor? (testPathFor source) = some tested
      ∧ same tested source = true := by
  have hplain := plain_testName_of_name hname
  rw [testPathFor_of_name hname hstem,
    testedPathFor?_of_name (fileName?_withFileName hname hplain)]
  exact ⟨_, rfl, same_withFileName_back hname hplain⟩

/-- From a test file to its source file and back. -/
theorem exists_source (hname : fileName? test = some (testName stem)) (hstem : stem ≠ []) :
    ∃ source, testedPathFor? test = some source ∧ extension? source = some "go"
      ∧ same (testPathFor source) test = true := by
  have hplain := plain_sourceName_of_name hname
  have hsource := fileName?_withFileName hname hplain
  refine ⟨_, testedPathFor?_of_name hname, extension?_eq_go_iff.mpr ⟨stem, hstem, hsource⟩, ?_⟩
  rw [testPathFor_of_name hsource hstem]
  exact same_withFileName_back hname hplain

/-- Source files that have one test file are the same. -/
theorem same_of_testPathFor {more : List Char} (hname : fileName? source = some (sourceName stem))
    (hstem : stem ≠ []) (hother : fileName? other = some (sourceName more)) (hmore : more ≠ [])
    (hsame : same (testPathFor source) (testPathFor other) = true) :
    same source other = true := by
  rw [same, beq_iff_eq, testPathFor_of_name hname hstem, testPathFor_of_name hother hmore,
    parts_withFileName hname (plain_testName_of_name hname),
    parts_withFileName hother (plain_testName_of_name hother)] at hsame
  obtain ⟨hdirectory, hlast⟩ := List.append_inj' hsame rfl
  obtain rfl : stem = more := by
    have htext := congrArg String.toList (Part.name.inj (List.singleton_inj.mp hlast))
    rw [toList_testName, toList_testName] at htext
    exact List.append_cancel_right htext
  rw [same, beq_iff_eq, ← List.dropLast_append_getLast? _ (fileName?_eq_some_iff.mp hname),
    hdirectory]
  exact List.dropLast_append_getLast? _ (fileName?_eq_some_iff.mp hother)

/-- Go files and test files belong to each other one to one. A Go file has its test file
beside it, which leads back to it and to no other; and every file whose name is more than
the ending of test files is the test file of some Go file. -/
theorem testPathFor_one_to_one :
    (∀ source, extension? source = some "go" →
      Beside source (testPathFor source)
        ∧ (∀ file : Source.File, file.path = testPathFor source → file.isTest = true)
        ∧ ∃ tested, testedPathFor? (testPathFor source) = some tested
          ∧ same tested source = true)
    ∧ (∀ source other, extension? source = some "go" → extension? other = some "go" →
      same (testPathFor source) (testPathFor other) = true → same source other = true)
    ∧ ∀ test stem, stem ≠ [] → fileName? test = some (testName stem) →
      ∃ source, testedPathFor? test = some source ∧ extension? source = some "go"
        ∧ same (testPathFor source) test = true := by
  refine ⟨fun source hgo => ?_, fun source other hgo hother hsame => ?_,
    fun test stem hstem hname => exists_source hname hstem⟩
  · obtain ⟨stem, hstem, hname⟩ := extension?_eq_go_iff.mp hgo
    refine ⟨?_, fun file hpath => ?_, exists_tested hname hstem⟩
    · rw [testPathFor_of_name hname hstem]
      exact beside_withFileName hname (plain_testName_of_name hname)
    · rw [Source.isTest_eq, hpath]
      exact Source.isTestPath_testPathFor source
  · obtain ⟨stem, hstem, hname⟩ := extension?_eq_go_iff.mp hgo
    obtain ⟨more, hmore, hothername⟩ := extension?_eq_go_iff.mp hother
    exact same_of_testPathFor hname hstem hothername hmore hsame

/-- Dots in front, dots in the middle, doubled slashes and a slash at the end. -/
theorem testPathFor_one_to_one_dotted :
    Beside "./calc//..go/" (testPathFor "./calc//..go/")
      ∧ (∃ tested, testedPathFor? (testPathFor "./calc//..go/") = some tested
        ∧ same tested "./calc//..go/" = true)
      ∧ same (testPathFor "calc//v1.2.go") (testPathFor "calc/./v1.2.go") = true
      ∧ same "calc//v1.2.go" "calc/./v1.2.go" = true
      ∧ ∃ source, testedPathFor? "calc/._test.go" = some source
        ∧ extension? source = some "go" ∧ same (testPathFor source) "calc/._test.go" = true := by
  obtain ⟨hforward, hone, hback⟩ := testPathFor_one_to_one
  obtain ⟨hbeside, -, htested⟩ := hforward "./calc//..go/" (by decide +kernel)
  have hsame : same (testPathFor "calc//v1.2.go") (testPathFor "calc/./v1.2.go") = true := by
    decide +kernel
  exact ⟨hbeside, htested, hsame, hone _ _ (by decide +kernel) (by decide +kernel) hsame,
    hback _ ['.'] (by decide) (by decide +kernel)⟩

end Assay
