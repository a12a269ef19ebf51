/-
The normal form of a file that tests are saved to one after the other. However
the names of the tests follow each other, the file holds the package clause of
the first save and, for each name, what was saved under it last, in the order of
these saves.

The induction is over the saves, the last one taken off: before it the file is
in normal form for the earlier saves, `patch_savedText` says what the last one
makes of that, and `lastSaves_concat` that this is the normal form for all.
-/
import Assay.Proofs.Repair.Saves
import Assay.Proofs.TestFile.Layout
import Mathlib.Data.List.Infix

namespace Assay.TestFile

open Text

variable {disk after : Disk} {path package : String} {test : GeneratedTest}
  {text : List Char}

-- ============================================================= the saves

/-- A save: the package it is made for, and the test. -/
abbrev Save := String × GeneratedTest

/-- Saves to one file without a fixer, one after the other; the first that fails
is the last. -/
def saveAll (machine : Machine) (path : String) : List Save → Disk → Except SaveError Disk
  | [], disk => .ok disk
  | (package, test) :: saves, disk =>
    match save machine .disabled path package test disk with
    | (.ok _, after) => saveAll machine path saves after
    | (.error error, _) => .error error

/-- For each name the last test that has it, in order. -/
def lastSaves : List GeneratedTest → List GeneratedTest
  | [] => []
  | test :: later =>
    if later.any (·.name == test.name) then lastSaves later else test :: lastSaves later

/-- One more test takes the place of the one that had its name. -/
theorem lastSaves_concat (tests : List GeneratedTest) (test : GeneratedTest) :
    lastSaves (tests ++ [test]) = (lastSaves tests).filter (outlasts test) ++ [test] := by
  induction tests with
  | nil => rfl
  | cons saved later ih =>
      have hany : (later ++ [test]).any (·.name == saved.name)
          = (later.any (·.name == saved.name) || test.name == saved.name) := by
        rw [List.any_append, List.any_cons, List.any_nil, Bool.or_false]
      rw [List.cons_append, lastSaves, lastSaves, hany, ih]
      cases later.any (·.name == saved.name) with
      | true => rfl
      | false =>
          rw [Bool.false_or, if_neg Bool.false_ne_true, List.filter_cons, outlasts, bne_comm]
          by_cases hsame : test.name = saved.name
          · simp [hsame]
          · simp [hsame]

theorem lastSaves_ne_nil {tests : List GeneratedTest} (hsome : tests ≠ []) :
    lastSaves tests ≠ [] := by
  obtain ⟨earlier, test, rfl⟩ := (List.eq_nil_or_concat tests).resolve_left hsome
  rw [List.concat_eq_append, lastSaves_concat]
  exact List.append_ne_nil_of_right_ne_nil _ (List.cons_ne_nil _ _)

-- =========================================================== on the disk

/-- The file holds a text, and can be written. -/
structure Holds (disk : Disk) (path : String) (text : List Char) : Prop where
  text : disk.readText path = .ok text
  writable : ∃ after, disk.write path (.text []) = .ok after

/-- A save succeeds on a file that can be read and written, and leaves one that
can be read and written again. -/
theorem save_holds (machine : Machine) {created : Bool}
    (hbefore : textBefore disk path = .ok (text, created))
    (hwritable : ∃ after, disk.write path (.text []) = .ok after)
    (package : String) (test : GeneratedTest) :
    ∃ saved after, save machine .disabled path package test disk = (.ok saved, after)
      ∧ Holds after path (patch text package test) := by
  obtain ⟨blank, hblank⟩ := hwritable
  obtain ⟨after, hwrite⟩ := Disk.exists_write hblank (.text (patch text package test))
  have hsave := save_unfixed machine path package test disk
  simp only [hbefore, hwrite] at hsave
  exact ⟨_, after, hsave, readText_of_write hwrite, Disk.exists_write_again hwrite _⟩

/-- Saves into a file in normal form. -/
theorem saveAll_holds (machine : Machine) {before : List GeneratedTest} {saves : List Save}
    (hsome : before ≠ [])
    (hholds : Holds disk path (savedText package (lastSaves before)))
    (hitself : ∀ save ∈ saves, DeclaresItself save.2)
    (hread : ∀ part ≠ [], part <+: before ++ saves.map (·.2) →
      readAsWritten package (lastSaves part) = true) :
    ∃ after, saveAll machine path saves disk = .ok after
      ∧ Holds after path (savedText package (lastSaves (before ++ saves.map (·.2)))) := by
  induction saves generalizing before disk with
  | nil =>
      rw [List.map_nil, List.append_nil]
      exact ⟨disk, rfl, hholds⟩
  | cons first saves ih =>
      obtain ⟨other, test⟩ := first
      obtain ⟨htest, hitself⟩ := List.forall_mem_cons.mp hitself
      have hnext : before ++ ((other, test) :: saves).map (·.2)
          = (before ++ [test]) ++ saves.map (·.2) := by
        rw [List.map_cons, List.append_assoc]
        rfl
      obtain ⟨saved, after, hsave, hafter⟩ := save_holds machine
        (textBefore_of_readText hholds.text) hholds.writable other test
      rw [patch_savedText (lastSaves_ne_nil hsome)
        (hread before hsome (List.prefix_append _ _)) htest, ← lastSaves_concat] at hafter
      rw [hnext] at hread ⊢
      rw [saveAll, hsave]
      exact ih (List.append_ne_nil_of_right_ne_nil _ (List.cons_ne_nil _ _)) hafter hitself hread

/-- Any sequence of saves to a file that is not there or blank succeeds, and
leaves it in normal form: the package clause of the first save, and of each name
the test that was saved last, in the order of these saves, all one blank line
apart and with one line feed at the end. It is assumed that a file in this form
is read as it is written. -/
theorem saveAll_normalForm (machine : Machine) (path : String) (first : Save) (saves : List Save)
    (disk : Disk) {text : List Char} {created : Bool}
    (hbefore : textBefore disk path = .ok (text, created)) (hblank : allBlank text = true)
    (hwritable : ∃ after, disk.write path (.text []) = .ok after)
    (hitself : ∀ save ∈ first :: saves, DeclaresItself save.2)
    (hread : ∀ part ≠ [], part <+: (first :: saves).map (·.2) →
      readAsWritten first.1 (lastSaves part) = true) :
    ∃ after, saveAll machine path (first :: saves) disk = .ok after
      ∧ after.readText path
        = .ok (savedText first.1 (lastSaves ((first :: saves).map (·.2)))) := by
  obtain ⟨package, test⟩ := first
  obtain ⟨-, hitself⟩ := List.forall_mem_cons.mp hitself
  obtain ⟨saved, after, hsave, hafter⟩ := save_holds machine hbefore hwritable package test
  rw [patch_of_allBlank hblank] at hafter
  have hfirst : [test] ≠ [] := List.cons_ne_nil _ _
  obtain ⟨final, hsaves, hholds⟩ := saveAll_holds machine hfirst hafter hitself hread
  refine ⟨final, ?_, hholds.text⟩
  rw [saveAll, hsave]
  exact hsaves

/-- A directory for the tests. -/
def calcDisk : Disk := ⟨[(["calc"], .directory)]⟩

/-- A test, before it is saved again. -/
def firstAdd : GeneratedTest := ⟨"TestAdd", "func TestAdd(t *testing.T) \x7b\x7d".toList⟩

/-- Another test, for another package, and the first one again. -/
def laterSaves : List Save := [
  ("sums", ⟨"TestSub", "func TestSub(t *testing.T) \x7b\x7d\n".toList⟩),
  ("calc", ⟨"TestAdd", "\n\nfunc TestAdd(t *testing.T) \x7b t.Log() \x7d".toList⟩)]

theorem saveAll_normalForm_calc :
    ∃ after, saveAll (fun _ disk => (.error .notFound, disk)) "/calc/calc_test.go"
        (("calc", firstAdd) :: laterSaves) calcDisk = .ok after
      ∧ after.readText "/calc/calc_test.go"
        = .ok ("package calc\n\nfunc TestSub(t *testing.T) \x7b\x7d\n\n"
          ++ "func TestAdd(t *testing.T) \x7b t.Log() \x7d\n").toList := by
  have hbefore : textBefore calcDisk "/calc/calc_test.go" = .ok ([], true) :=
    eq_ok_of_toOption (by decide +kernel)
  have hwrites : (calcDisk.write "/calc/calc_test.go" (.text [])).toOption.isSome = true := by
    decide +kernel
  obtain ⟨written, hwrite⟩ := Option.isSome_iff_exists.mp hwrites
  obtain ⟨hread, hone, hsaved⟩ :
      (∀ part ∈ ((("calc", firstAdd) :: laterSaves).map (·.2)).inits, part ≠ [] →
        readAsWritten "calc" (lastSaves part) = true)
      ∧ (∀ save ∈ ("calc", firstAdd) :: laterSaves, isOneFunction save.2 = true)
      ∧ savedText "calc" (lastSaves ((("calc", firstAdd) :: laterSaves).map (·.2)))
        = ("package calc\n\nfunc TestSub(t *testing.T) \x7b\x7d\n\n"
          ++ "func TestAdd(t *testing.T) \x7b t.Log() \x7d\n").toList := by
    rw [firstAdd, laterSaves]
    simp only [String.toList_append, String.reduceToList]
    decide +kernel
  obtain ⟨after, hsaves, htext⟩ := saveAll_normalForm (fun _ disk => (.error .notFound, disk))
    "/calc/calc_test.go" ("calc", firstAdd) laterSaves calcDisk hbefore rfl
    ⟨written, eq_ok_of_toOption hwrite⟩
    (fun save hmem => declaresItself_of_isOneFunction (hone save hmem))
    fun part hsome hpart => hread part ((List.mem_inits _ _).mpr hpart) hsome
  exact ⟨after, hsaves, hsaved ▸ htext⟩

end Assay.TestFile
