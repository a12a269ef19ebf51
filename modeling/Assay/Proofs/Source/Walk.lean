/-
What a walk reads of a disk besides the files with tests. Two disks that differ
in such files only have the same directories, so paths are followed alike on
both; and what a path leads to is told from its own last name, so a path that
is not a test file's leads to the same file on both. The walk comes by the same
other files, and since it is in order, it comes by them in the same order.
-/
import Assay.Proofs.Location
import Assay.Proofs.Source.Bare
import Assay.Proofs.Source.Load
import Assay.TestPath
import Mathlib.Data.String.Basic

namespace Assay.Source

open Assay.Path

variable {disk other : Disk} {path : String} {root location : Location}

-- ============================================================ test files

/-- A test file may be at the location. -/
def isTestLocation (location : Location) : Bool :=
  match location.getLast? with
  | some name => Text.endsWith File.testEnding name.toList
  | none => false

theorem isTestPath_pathOf (hplain : ∀ name ∈ location, Plain name) :
    isTestPath (Disk.pathOf location) = isTestLocation location := by
  unfold isTestPath
  rw [Disk.fileName?_pathOf hplain]
  rfl

theorem isTestPath_of_parts {front : List Part} {name : String}
    (hparts : parts path = front ++ [.name name]) :
    isTestPath path = Text.endsWith File.testEnding name.toList := by
  unfold isTestPath fileName?
  rw [hparts, List.getLast?_concat]

theorem isTestPath_push {name : String} (hname : Plain name) (path : String) :
    isTestPath (push path name) = Text.endsWith File.testEnding name.toList :=
  isTestPath_of_parts (parts_push hname path)

theorem isTestLocation_concat (directory : Location) (name : String) :
    isTestLocation (directory ++ [name]) = Text.endsWith File.testEnding name.toList := by
  rw [isTestLocation, List.getLast?_concat]

/-- What a path leads to is a test file's place if the path is a test file's,
unless it is a directory. -/
theorem isTestLocation_of_follow (hfollow : disk.follow [] (parts path) = .ok location)
    (hentry : disk.entry? location ≠ some .directory) :
    isTestLocation location = isTestPath path := by
  obtain ⟨front, directory, name, hparts, rfl⟩ := Disk.exists_name_of_follow hfollow hentry
  rw [isTestPath_of_parts hparts, isTestLocation_concat]

theorem plain_of_endsWith {name : String}
    (hends : Text.endsWith File.testEnding name.toList = true)
    (hfree : ∀ c ∈ name.toList, (c == '/') = false) : Plain name := by
  obtain ⟨front, htext⟩ := Text.endsWith_iff.mp hends
  have hlength : File.testEnding.length ≤ name.toList.length := by
    rw [htext, List.length_append]
    exact Nat.le_add_left _ _
  have hother (short : List Char) (hshort : short.length < File.testEnding.length) :
      name.toList ≠ short := fun h => by
    rw [h] at hlength
    exact Nat.not_lt.mpr hlength hshort
  refine ⟨?_, hother ['.', '.'] (by decide), hfree⟩
  rw [isIdle, Bool.or_eq_false_iff, List.isEmpty_eq_false_iff, beq_eq_false_iff_ne]
  exact ⟨hother [] (by decide), hother ['.'] (by decide)⟩

/-- Tests are saved to test files. -/
theorem isTestPath_testPathFor (source : String) : isTestPath (testPathFor source) = true := by
  have hfree : ∀ c ∈ ((stem? source).getD "" ++ String.ofList testSuffix).toList,
      (c == '/') = false := by
    intro c hmem
    rw [String.toList_append, String.toList_ofList] at hmem
    rcases List.mem_append.mp hmem with hstem | hsuffix
    · cases hsome : stem? source with
      | none => exact absurd hstem (by simp [hsome])
      | some stem =>
          rw [hsome] at hstem
          exact slashFree_stem? hsome c hstem
    · exact (by decide +kernel : Plain "_test.go").slashFree c hsuffix
  have hends : Text.endsWith File.testEnding
      ((stem? source).getD "" ++ String.ofList testSuffix).toList = true := by
    rw [String.toList_append, String.toList_ofList]
    exact Text.endsWith_iff.mpr ⟨_, rfl⟩
  unfold testPathFor withFileName
  dsimp only
  split <;> rw [isTestPath_push (plain_of_endsWith hends hfree), hends]

-- ========================================================= besides tests

/-- The disks have the same besides test files. -/
def SameBesidesTests (disk other : Disk) : Prop := ∀ location,
  disk.entry? location = other.entry? location
    ∨ isTestLocation location = true
      ∧ disk.entry? location ≠ some .directory ∧ other.entry? location ≠ some .directory

theorem SameBesidesTests.symm (hsame : SameBesidesTests disk other) :
    SameBesidesTests other disk := by
  intro location
  rcases hsame location with hentry | ⟨htest, hdisk, hother⟩
  · exact Or.inl hentry.symm
  · exact Or.inr ⟨htest, hother, hdisk⟩

theorem SameBesidesTests.directory (hsame : SameBesidesTests disk other)
    (hentry : disk.entry? location = some .directory) :
    other.entry? location = some .directory := by
  rcases hsame location with hboth | ⟨-, hdisk, -⟩
  · rw [← hboth, hentry]
  · exact absurd hentry hdisk

/-- A disk with one more test file is the same besides it. -/
theorem sameBesidesTests_insert {front back : List (Location × Entry)} {place : Location}
    (htest : isTestLocation place = true) (hnew : place ∉ (front ++ back).map (·.1))
    (content : Content) :
    SameBesidesTests ⟨front ++ back⟩ ⟨front ++ (place, .file content) :: back⟩ := by
  intro location
  have hroot : place.isEmpty = false := by
    cases place with
    | nil => cases htest
    | cons name rest => rfl
  by_cases hsame : location = place
  · subst hsame
    rw [List.map_append, List.mem_append, not_or] at hnew
    have hfree {entries : List (Location × Entry)} (h : location ∉ entries.map (·.1)) :
        entries.find? (·.1 == location) = none :=
      List.find?_eq_none.mpr fun entry hmem hbeq =>
        h (List.mem_map.mpr ⟨entry, hmem, eq_of_beq hbeq⟩)
    refine Or.inr ⟨htest, ?_, ?_⟩ <;>
      simp [Disk.entry?, hroot, List.find?_append, hfree hnew.1, hfree hnew.2]
  · refine Or.inl ?_
    simp [Disk.entry?, List.find?_append, Ne.symm hsame]

/-- Writing a test file is writing nothing else. -/
theorem sameBesidesTests_write {content : Content} {after : Disk} (hpath : isTestPath path = true)
    (hwrite : disk.write path content = .ok after) : SameBesidesTests disk after := by
  obtain ⟨place, rfl, hplace, -, -, hfollow⟩ := Disk.exists_place_of_write hwrite
  have hroot : place ≠ [] := fun h => hplace (h ▸ rfl)
  intro location
  rw [Disk.entry?_put hroot]
  by_cases hsame : location = place
  · subst hsame
    refine Or.inr ⟨(isTestLocation_of_follow hfollow hplace).trans hpath, hplace, ?_⟩
    rw [if_pos rfl]
    exact fun h => by cases h
  · rw [if_neg hsame]
    exact Or.inl rfl

-- ================================================================= paths

/-- A path leads to the same on both disks when the same is there. -/
theorem SameBesidesTests.locate_of_same (hsame : SameBesidesTests disk other)
    (hentry : disk.entry? location = other.entry? location)
    (hlocate : disk.locate path = .ok location) : other.locate path = .ok location := by
  obtain ⟨hsome, hfollow, harrive⟩ := Disk.locate_eq_ok_iff.mp hlocate
  rw [hentry] at harrive
  exact Disk.locate_eq_ok_iff.mpr
    ⟨hsome, Disk.follow_congr (fun location => hsame.directory) hfollow, harrive⟩

/-- A path that is not a test file's leads to the same on both disks. -/
theorem SameBesidesTests.locate (hsame : SameBesidesTests disk other)
    (hpath : isTestPath path = false) (hlocate : disk.locate path = .ok location) :
    other.entry? location = disk.entry? location ∧ other.locate path = .ok location := by
  rcases hsame location with hentry | ⟨htest, hdirectory, -⟩
  · exact ⟨hentry.symm, hsame.locate_of_same hentry hlocate⟩
  · obtain ⟨-, hfollow, -⟩ := Disk.locate_eq_ok_iff.mp hlocate
    rw [isTestLocation_of_follow hfollow hdirectory, hpath] at htest
    cases htest

theorem SameBesidesTests.locate? (hsame : SameBesidesTests disk other)
    (hpath : isTestPath path = false) : disk.locate? path = other.locate? path := by
  unfold Disk.locate?
  cases hdisk : disk.locate path with
  | ok location => rw [(hsame.locate hpath hdisk).2]
  | error fault =>
      cases hother : other.locate path with
      | error fault => rfl
      | ok location =>
          rw [(hsame.symm.locate hpath hother).2] at hdisk
          cases hdisk

theorem SameBesidesTests.isFile (hsame : SameBesidesTests disk other)
    (hpath : isTestPath path = false) : disk.isFile path = other.isFile path := by
  unfold Disk.isFile
  rw [← hsame.locate? hpath]
  cases hlocate : disk.locate? path with
  | none => rfl
  | some location =>
      rw [Option.bind_some, Option.bind_some,
        (hsame.locate hpath (eq_ok_of_toOption hlocate)).1]

theorem SameBesidesTests.readText (hsame : SameBesidesTests disk other)
    (hpath : isTestPath path = false) {text : List Char}
    (hread : disk.readText path = .ok text) : other.readText path = .ok text := by
  unfold Disk.readText Disk.read at hread ⊢
  cases hlocate : disk.locate path with
  | error fault =>
      rw [hlocate] at hread
      cases hread
  | ok location =>
      obtain ⟨hentry, hother⟩ := hsame.locate hpath hlocate
      rw [hlocate] at hread
      rw [hother]
      dsimp only [bind, Except.bind] at hread ⊢
      rw [hentry]
      exact hread

/-- A path that is not a test file's is spelled the same on both disks. -/
theorem SameBesidesTests.absolute {module more : Module}
    (hsame : SameBesidesTests module.disk more.disk) (hdisk : module.disk.WellFormed)
    (hroot : module.root = more.root) (hpath : isTestPath (module.absolute path) = false) :
    more.absolute path = module.absolute path := by
  unfold Module.absolute at hpath ⊢
  dsimp only at hpath ⊢
  rw [← hroot]
  cases hlocate : module.disk.locate? (push module.root path) with
  | none =>
      rw [hlocate] at hpath
      rw [← hsame.locate? hpath, hlocate]
  | some location =>
      rw [hlocate] at hpath
      have hfound := eq_ok_of_toOption hlocate
      have hthere : module.disk.entry? location ≠ none := by
        obtain ⟨-, -, hentry | ⟨-, content, hentry⟩⟩ := Disk.locate_eq_ok_iff.mp hfound <;>
          rw [hentry] <;> exact Option.some_ne_none _
      have hentry : module.disk.entry? location = more.disk.entry? location := by
        rcases hsame location with hentry | ⟨htest, -⟩
        · exact hentry
        · rw [isTestPath_pathOf (hdisk.plain_of_ne_none hthere), htest] at hpath
          cases hpath
      rw [Disk.locate?, hsame.locate_of_same hentry hfound]
      rfl

-- ============================================================== the walk

theorem plain_moduleFileName : Plain moduleFileName := by decide +kernel

theorem SameBesidesTests.modulePath (hsame : SameBesidesTests disk other) {root found : String}
    (hread : readModulePath disk root = .ok found) : readModulePath other root = .ok found := by
  have hpath : isTestPath (push root moduleFileName) = false := by
    rw [isTestPath_push plain_moduleFileName]
    decide
  unfold readModulePath at hread ⊢
  dsimp only at hread ⊢
  cases htext : disk.readText (push root moduleFileName) with
  | error fault =>
      rw [htext] at hread
      cases fault <;> cases hread
  | ok text =>
      rw [htext] at hread
      rw [hsame.readText hpath htext]
      exact hread

theorem SameBesidesTests.reached (hsame : SameBesidesTests disk other)
    (hplain : ∀ name ∈ location, Plain name) :
    isReached disk root location = isReached other root location := by
  unfold isReached
  congr 1
  funext length
  have hpath : isTestPath (Disk.pathOf (location.take length ++ [moduleFileName])) = false := by
    rw [isTestPath_pathOf, isTestLocation_concat]
    · decide
    · intro name hmem
      rcases List.mem_append.mp hmem with htake | hmodule
      · exact hplain name ((List.take_sublist length location).subset htake)
      · rw [List.mem_singleton.mp hmodule]
        exact plain_moduleFileName
  unfold isIgnored
  rw [hsame.isFile hpath]

theorem mem_goFiles : location ∈ goFiles disk root ↔
    location ∈ disk.entries.map (·.1)
      ∧ root.length < location.length ∧ location.take root.length = root
      ∧ disk.isFile (Disk.pathOf location) = true
      ∧ Path.extension? (Disk.pathOf location) = some "go"
      ∧ isReached disk root location = true := by
  simp [goFiles, Disk.below, and_assoc]

/-- The walk is in the order of names. -/
theorem precedes_iff {a b : Location} : Disk.precedes a b = true ↔ a ≤ b := by
  induction a generalizing b with
  | nil =>
      have hle : ([] : Location) ≤ b := not_lt.mp (List.not_lt_nil b)
      simp [Disk.precedes, hle]
  | cons x a ih =>
      cases b with
      | nil => simp [Disk.precedes, ← not_lt]
      | cons y b =>
          rw [Disk.precedes, cons_le_cons_iff]
          by_cases hsame : x = y
          · simp [hsame, ih]
          · simp [hsame]

theorem pairwise_goFiles : (goFiles disk root).Pairwise (· ≤ ·) := by
  have htrans : ∀ a b c : Location, Disk.precedes a b = true → Disk.precedes b c = true →
      Disk.precedes a c = true := by
    intro a b c hab hbc
    exact precedes_iff.mpr (le_trans (precedes_iff.mp hab) (precedes_iff.mp hbc))
  have htotal : ∀ a b : Location, (Disk.precedes a b || Disk.precedes b a) = true := by
    intro a b
    rw [Bool.or_eq_true, precedes_iff, precedes_iff]
    exact le_total a b
  exact ((List.pairwise_mergeSort htrans htotal _).imp precedes_iff.mp).filter _

theorem nodup_goFiles (hdisk : disk.WellFormed) : (goFiles disk root).Nodup :=
  ((List.mergeSort_perm _ _).nodup_iff.mpr (hdisk.nodup.filter _)).filter _

theorem SameBesidesTests.mem_walk (hsame : SameBesidesTests disk other) (hdisk : disk.WellFormed)
    (hmem : location ∈ goFiles disk root) (htest : isTestLocation location = false) :
    location ∈ goFiles other root := by
  obtain ⟨hentry, hlength, hlead, hfile, hgo, hreached⟩ := mem_goFiles.mp hmem
  have hplain := hdisk.plain location hentry
  have hpath : isTestPath (Disk.pathOf location) = false := by
    rw [isTestPath_pathOf hplain, htest]
  refine mem_goFiles.mpr ⟨Disk.mem_locations_of_ne_none ?_ ?_, hlength, hlead, ?_, hgo, ?_⟩
  · rintro rfl
    cases hlength
  · rcases hsame location with hboth | ⟨hyes, -⟩
    · rw [← hboth]
      exact Disk.ne_none_of_mem_locations hentry
    · rw [hyes] at htest
      cases htest
  · rw [← hsame.isFile hpath, hfile]
  · rw [← hsame.reached hplain, hreached]

/-- The walk comes by the same files on both disks, besides files with tests. -/
theorem SameBesidesTests.walk (hsame : SameBesidesTests disk other) (hdisk : disk.WellFormed)
    (hother : other.WellFormed) :
    (goFiles disk root).filter (!isTestLocation ·)
      = (goFiles other root).filter (!isTestLocation ·) := by
  refine List.Perm.eq_of_pairwise (fun a b _ _ => le_antisymm) (pairwise_goFiles.filter _)
    (pairwise_goFiles.filter _) ?_
  refine (List.perm_ext_iff_of_nodup ((nodup_goFiles hdisk).filter _)
    ((nodup_goFiles hother).filter _)).mpr ?_
  intro location
  rw [List.mem_filter, List.mem_filter, Bool.not_eq_true']
  exact ⟨fun h => ⟨hsame.mem_walk hdisk h.1 h.2, h.2⟩,
    fun h => ⟨hsame.symm.mem_walk hother h.1 h.2, h.2⟩⟩

end Assay.Source
