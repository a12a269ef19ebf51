/-
The counts of a save. A save that succeeds has read a text, written another, and found a
third in the file once the fixer was done (`save_eq_ok`); it counts the lines of the first
against those of the third. What the fixer did is not known, and the counts are about
what was left of the lines in spite of it: the disk says what it left, and the lines that
two texts have in common are a matter of the texts alone (`exists_kept`).
-/
import Assay.Proofs.Repair.Saves
import Assay.Proofs.Text.LineDiff

namespace Assay.TestFile

open Text

variable {machine : Machine} {fixer : ImportFixer} {path package : String}
  {test : GeneratedTest} {disk written after : Disk} {saved : Saved}

-- ============================================================ what is read

/-- What a save that succeeds has done. -/
theorem save_eq_ok (hsave : save machine fixer path package test disk = (.ok saved, after)) :
    ∃ before now written, textBefore disk path = .ok (before, saved.created)
      ∧ disk.write path (.text (patch before package test)) = .ok written
      ∧ fixer.run machine path written = (.ok (), after)
      ∧ textAfter fixer after path (patch before package test) = .ok now
      ∧ saved.changes = lineChanges before now := by
  unfold save at hsave
  split at hsave
  · cases hsave
  · next before created hbefore =>
      dsimp only at hsave
      split at hsave
      · cases hsave
      · next written hwrite =>
          split at hsave
          · cases hsave
          · next fixed hrun =>
              split at hsave
              · cases hsave
              · next now hnow =>
                  cases hsave
                  exact ⟨before, now, written, hbefore, hwrite, hrun, hnow, rfl⟩

/-- The text that is counted is the one in the file, whether it is read again or taken
to be what was written. -/
theorem readText_of_textAfter {text now : List Char}
    (hwrite : disk.write path (.text text) = .ok written)
    (hrun : fixer.run machine path written = (.ok (), after))
    (hnow : textAfter fixer after path text = .ok now) : after.readText path = .ok now := by
  cases fixer with
  | disabled =>
      obtain rfl : written = after := congrArg Prod.snd hrun
      obtain rfl : text = now := Except.ok.inj hnow
      exact readText_of_write hwrite
  | command program arguments =>
      simp only [textAfter] at hnow
      split at hnow
      · next found hread => rw [hread, ← Except.ok.inj hnow]
      · cases hnow

-- ============================================================== the counts

/-- What a save that succeeds has counted, whatever the fixer made of the file: the lines
that are not removed and the lines that are not added are the same, as many as the text
from before and the text in the file can have in common, and nothing is counted only
where the text is the same. -/
theorem save_counts (hsave : save machine fixer path package test disk = (.ok saved, after)) :
    ∃ before now kept, textBefore disk path = .ok (before, saved.created)
      ∧ after.readText path = .ok now
      ∧ saved.changes.Keeps (linesCompared before) (linesCompared now) kept
      ∧ (∀ common : List (List Char), common.Sublist (linesCompared before) →
          common.Sublist (linesCompared now) → common.length ≤ kept.length)
      ∧ (saved.changes.added = 0 ∧ saved.changes.removed = 0 ↔ now = before) := by
  obtain ⟨before, now, written, hbefore, hwrite, hrun, hnow, hchanges⟩ := save_eq_ok hsave
  obtain ⟨kept, hkeeps, hlongest⟩ := exists_kept before now
  rw [hchanges]
  exact ⟨before, now, kept, hbefore, readText_of_textAfter hwrite hrun hnow, hkeeps, hlongest,
    lineChanges_eq_zero_iff⟩

/-- A file with both line endings and no ending after its last line. -/
def mixedDisk : Disk := Disk.empty.plant ["calc", "calc_test.go"]
  (.file (.text "package calc\r\n\n// sums\r\n// to do".toList))

/-- A program that rewrites the file, whatever it is asked: it drops a comment, and the
ending of the last line with it. -/
def rewriting : Machine := fun _ disk =>
  match disk.write "/calc/calc_test.go"
      (.text "package calc\r\n\n// to do\n\nfunc TestAdd(t *testing.T) \x7b\x7d".toList) with
  | .ok after => (.ok ⟨true, some 0, [], []⟩, after)
  | .error fault => (.error fault, disk)

/-- What is saved there. -/
def addTest : GeneratedTest := ⟨"TestAdd", "func TestAdd(t *testing.T) \x7b\x7d".toList⟩

theorem save_counts_rewriting : ∃ after,
    save rewriting (.command "goimports" ["-w"]) "/calc/calc_test.go" "calc" addTest mixedDisk
        = (.ok ⟨"/calc/calc_test.go", false, ⟨3, 2⟩⟩, after)
      ∧ ∃ before now kept, textBefore mixedDisk "/calc/calc_test.go" = .ok (before, false)
        ∧ after.readText "/calc/calc_test.go" = .ok now
        ∧ LineChanges.Keeps ⟨3, 2⟩ (linesCompared before) (linesCompared now) kept
        ∧ (∀ common : List (List Char), common.Sublist (linesCompared before) →
            common.Sublist (linesCompared now) → common.length ≤ kept.length)
        ∧ (3 = 0 ∧ 2 = 0 ↔ now = before) := by
  have hsaved : (save rewriting (.command "goimports" ["-w"]) "/calc/calc_test.go" "calc"
      addTest mixedDisk).1.toOption = some ⟨"/calc/calc_test.go", false, ⟨3, 2⟩⟩ := by
    decide +kernel
  have hsave : save rewriting (.command "goimports" ["-w"]) "/calc/calc_test.go" "calc"
      addTest mixedDisk = (.ok ⟨"/calc/calc_test.go", false, ⟨3, 2⟩⟩, _) :=
    Prod.ext (eq_ok_of_toOption hsaved) rfl
  exact ⟨_, hsave, save_counts hsave⟩

end Assay.TestFile
