/-
Test files have no say in what is found of a function. A query is answered in
the module without its test files as in the module, and disks that are the same
besides test files have the same module without them. The file that a test is
saved to is a test file, so saving one changes nothing of what a later prompt
says about definitions.
-/
import Assay.Prompt.Assemble
import Assay.Proofs.Focal.Bare
import Assay.Proofs.Source.Blind

namespace Assay.Focal

open Assay.Source

variable {module more : Module} {path query : String}

-- ============================================================== answers

/-- The answer to a query: the function, in its package without tests, and the
definitions it uses. -/
def answer (module : Module) (path query : String) (depth : Nat) :
    Except ResolveError (Target × UsageClosure) :=
  (resolve module path query).map fun target => (target.bare, uses module target depth)

theorem answer_eq (module : Module) (path query : String) (depth : Nat) :
    answer module path query depth = ((resolve module path query).map Target.bare).map
      fun target => (target, uses module.bare target depth) := by
  unfold answer
  cases resolve module path query with
  | error error => rfl
  | ok target =>
      show Except.ok (target.bare, uses module target depth)
        = Except.ok (target.bare, uses module.bare target.bare depth)
      rw [uses_bare]

-- =========================================================== besides tests

/-- Disks that are the same besides test files give the same answers, if every
package has a file without tests. So the tests that are saved to one change
nothing of what a later prompt says about definitions. -/
theorem answer_besides_tests {disk : Disk} {root : String} (hdisk : disk.WellFormed)
    (hload : load disk root = .ok module) (hsources : module.Sourced)
    (hpath : isTestPath (module.absolute path) = false) (query : String) (depth : Nat) :
    (∀ other more, other.WellFormed → SameBesidesTests disk other → load other root = .ok more →
        more.Sourced → answer more path query depth = answer module path query depth)
      ∧ ∀ source content after later, disk.write (testPathFor source) content = .ok after →
        load after root = .ok later → later.Sourced →
        (answer later path query depth).map (Prompt.definitionSection ·.2)
          = (answer module path query depth).map (Prompt.definitionSection ·.2) := by
  have hsame : ∀ other more, other.WellFormed → SameBesidesTests disk other →
      load other root = .ok more → more.Sourced →
      answer more path query depth = answer module path query depth := by
    intro other more hother hsame hmore hmoreSources
    have hbare := hsame.load hdisk hother hload hmore hsources hmoreSources
    have hroot : module.bare.root = more.bare.root := by rw [hbare]
    have hdisks : SameBesidesTests module.disk more.disk := by
      rw [disk_of_load hload, disk_of_load hmore]
      exact hsame
    have habsolute : more.absolute path = module.absolute path :=
      hdisks.absolute (disk_of_load hload ▸ hdisk) hroot hpath
    have hfile : (more.fileAt? path).map (fun found => (found.1.bare, found.2))
        = (module.fileAt? path).map fun found => (found.1.bare, found.2) := by
      rw [Module.fileAt?_bare _ hpath, Module.fileAt?_bare _ (habsolute ▸ hpath), habsolute, hbare]
    rw [answer_eq, answer_eq, hbare, resolve_congr hfile query]
  refine ⟨hsame, ?_⟩
  intro source content after later hwrite hlater hlaterSources
  rw [hsame after later (hdisk.write hwrite)
    (sameBesidesTests_write (isTestPath_testPathFor source) hwrite) hlater hlaterSources]

-- =============================================================== a shelf

/-- A file with a function and its helper. -/
def shelfText : List Char :=
  "package shelf\n\nfunc Use() \x7b help() \x7d\n\nfunc help() \x7b\x7d\n".toList

/-- A test file with a helper of the same name. -/
def shelfTestText : List Char := "package shelf\n\nfunc help(shelf int) \x7b\x7d\n".toList

/-- The disk before tests are written, but for what comes after them in order. -/
def shelfStart : List (Location × Entry) := [(["shelf"], .directory)]

/-- The rest of the disk. -/
def shelfRest : List (Location × Entry) :=
  [(["shelf", "a.go"], .file (.text shelfText)),
    (["shelf", "go.mod"], .file (.text "module example.com/shelf\n".toList))]

/-- A module of one file. -/
def shelfDisk : Disk := ⟨shelfStart ++ shelfRest⟩

/-- The module with tests. -/
def testedShelfDisk : Disk :=
  ⟨shelfStart ++ (["shelf", "A_test.go"], .file (.text shelfTestText)) :: shelfRest⟩

/-- The module, loaded. -/
def shelf : Module := moduleOf shelfDisk ["shelf"] "example.com/shelf"
  ([(["shelf", "a.go"], shelfText)].filterMap parsedFile?)

/-- The module with tests, loaded. -/
def testedShelf : Module := moduleOf testedShelfDisk ["shelf"] "example.com/shelf"
  ([(["shelf", "A_test.go"], shelfTestText), (["shelf", "a.go"], shelfText)].filterMap parsedFile?)

theorem load_shelf : load shelfDisk "/shelf" = .ok shelf := by
  rw [shelf, shelfDisk, shelfRest, show shelfText = _ from String.toList_ofList]
  refine load_of_ordered ?_ ?_ ?_ ?_ ?_ <;> decide +kernel

theorem load_testedShelf : load testedShelfDisk "/shelf" = .ok testedShelf := by
  rw [testedShelf, testedShelfDisk, shelfRest, show shelfText = _ from String.toList_ofList,
    show shelfTestText = _ from String.toList_ofList]
  refine load_of_ordered ?_ ?_ ?_ ?_ ?_ <;> decide +kernel

/-- The helper of the tests comes first in the walk, and is not found. -/
theorem answer_besides_tests_shelf :
    load shelfDisk "/shelf" = .ok shelf ∧ load testedShelfDisk "/shelf" = .ok testedShelf
      ∧ answer testedShelf "a.go" "Use" 1 = answer shelf "a.go" "Use" 1
      ∧ (answer shelf "a.go" "Use" 1).toOption.map (·.2.values.map (·.body))
        = some [some "func help() \x7b\x7d"] := by
  have hsame : SameBesidesTests shelfDisk testedShelfDisk :=
    sameBesidesTests_insert (by decide +kernel) (by decide +kernel) _
  obtain ⟨hsources, htested, hbodies⟩ : shelf.Sourced ∧ testedShelf.Sourced
      ∧ (answer shelf "a.go" "Use" 1).toOption.map (·.2.values.map (·.body))
        = some [some "func help() \x7b\x7d"] := by
    rw [testedShelf, testedShelfDisk, shelf, shelfDisk, shelfRest,
      show shelfText = _ from String.toList_ofList,
      show shelfTestText = _ from String.toList_ofList]
    decide +kernel
  have hanswer := answer_besides_tests (by decide +kernel : shelfDisk.WellFormed) load_shelf
    hsources (by decide +kernel : isTestPath (shelf.absolute "a.go") = false) "Use" 1
  refine ⟨load_shelf, load_testedShelf, ?_, hbodies⟩
  exact hanswer.1 testedShelfDisk testedShelf (by decide +kernel) hsame load_testedShelf htested

end Assay.Focal
