/-
What a repair run does to the disk when its services write no files: it changes
the test file and nothing else, and the test file holds what it held before with
the saved tests merged into it, one after the other.

This holds however the run ends, because it holds of every history of steps:
asking and executing leave the disk alone, and a save reads the file, merges the
test and writes it back (`Chained.readText_eq`). A file that holds no text is
never written, since the first save fails to read it. That an execution comes
right after the save of its test is seen attempt by attempt along the course of
the run.
-/
import Assay.Proofs.Disk
import Assay.Proofs.Repair.Course

namespace Assay.TestFile

-- ============================================================== one save

variable {machine : Machine} {path package : String} {test : GeneratedTest} {disk : Disk}

/-- A save without a fixer. A file that cannot be read or written stays as it
is. -/
theorem save_unfixed (machine : Machine) (path package : String) (test : GeneratedTest)
    (disk : Disk) : save machine .disabled path package test disk
      = match textBefore disk path with
        | .error error => (.error error, disk)
        | .ok (existing, created) =>
          match disk.write path (.text (patch existing package test)) with
          | .error fault => (.error (.file path fault), disk)
          | .ok after =>
            (.ok ⟨path, created, Text.lineChanges existing (patch existing package test)⟩,
              after) := by
  unfold save
  cases textBefore disk path with
  | error error => rfl
  | ok found =>
      obtain ⟨existing, created⟩ := found
      cases hwrite : disk.write path (.text (patch existing package test)) with
      | error fault => simp only [hwrite]
      | ok after => simp only [hwrite, ImportFixer.run, textAfter]

/-- The text of a file that was written is what was written. -/
theorem readText_of_write {after : Disk} {text : List Char}
    (hwrite : disk.write path (.text text) = .ok after) : after.readText path = .ok text := by
  unfold Disk.readText
  rw [Disk.read_of_write hwrite]
  rfl

theorem textBefore_of_readText {text : List Char} (hread : disk.readText path = .ok text) :
    textBefore disk path = .ok (text, false) := by
  unfold textBefore
  rw [hread]

end Assay.TestFile

namespace Assay.Repair

open TestRun

variable {σ : Type} {services : Services σ} {settings : Settings}

-- ======================================================== what is assumed

/-- The services write no files. -/
structure Services.LeaveDisk (services : Services σ) : Prop where
  answer : ∀ messages world, (services.answer messages world).2.disk = world.disk
  execute : ∀ invocation world, (services.execute invocation world).2.disk = world.disk

/-- A save of a step that has read the file also writes it. -/
def Step.Writes (settings : Settings) (before : Disk) : Step σ → Prop
  | .saved test _ _ => ∀ text created,
    TestFile.textBefore before settings.target = .ok (text, created) →
      ∃ after, before.write settings.target (.text (TestFile.patch text settings.package test))
        = .ok after
  | _ => True

/-- No write of a history fails. -/
def AllWrite (settings : Settings) : Disk → List (Step σ) → Prop
  | _, [] => True
  | before, step :: steps => step.Writes settings before ∧ AllWrite settings step.world.disk steps

-- =========================================================== the history

/-- The tests whose saving was begun. -/
def saves (steps : List (Step σ)) : List GeneratedTest :=
  steps.filterMap fun
    | .saved test _ _ => some test
    | _ => none

/-- A text with tests merged into it, one after the other. -/
def merged (package : String) (text : List Char) (tests : List GeneratedTest) : List Char :=
  tests.foldl (TestFile.patch · package ·) text

/-- What a save does to the disk: it writes the target with the test merged into
what it has read there, and nothing when it cannot read or cannot write. -/
theorem Step.Follows.saved (unfixed : settings.fixer = .disabled) {before world : World σ}
    {test : GeneratedTest} {result : Except TestFile.SaveError TestFile.Saved}
    (follows : (Step.saved test result world).Follows services settings before) :
    (∃ error, TestFile.textBefore before.disk settings.target = .error error
        ∧ world.disk = before.disk)
      ∨ ∃ text created, TestFile.textBefore before.disk settings.target = .ok (text, created)
        ∧ ((∃ fault, before.disk.write settings.target
              (.text (TestFile.patch text settings.package test)) = .error fault)
            ∧ world.disk = before.disk
          ∨ before.disk.write settings.target
              (.text (TestFile.patch text settings.package test)) = .ok world.disk) := by
  have hsave := follows.1
  rw [unfixed, TestFile.save_unfixed] at hsave
  split at hsave
  · next error herror => exact Or.inl ⟨error, herror, (congrArg Prod.snd hsave).symm⟩
  · next text created htext =>
      refine Or.inr ⟨text, created, htext, ?_⟩
      split at hsave
      · next fault hfault => exact Or.inl ⟨⟨fault, hfault⟩, (congrArg Prod.snd hsave).symm⟩
      · next after hwrite =>
          obtain rfl : after = world.disk := congrArg Prod.snd hsave
          exact Or.inr hwrite

/-- A step of a service leaves the disk as it is. -/
theorem Step.Follows.disk_eq (leave : services.LeaveDisk) {before : World σ} {step : Step σ}
    (follows : step.Follows services settings before) (hnone : saves [step] = []) :
    step.world.disk = before.disk := by
  cases step with
  | asked messages answer world =>
      rw [← leave.answer messages before, show services.answer messages before = _ from follows]
      rfl
  | executed test invocation result world =>
      rw [← leave.execute invocation before, follows.2]
      rfl
  | saved test result world => cases hnone

/-- A step changes at most the target. -/
theorem Step.Follows.sameBut (leave : services.LeaveDisk) (unfixed : settings.fixer = .disabled)
    {before : World σ} {step : Step σ} (follows : step.Follows services settings before) :
    Disk.SameBut settings.target before.disk step.world.disk := by
  cases step with
  | asked | executed =>
      rw [follows.disk_eq leave rfl]
      exact .refl _ _
  | saved test result world =>
      show Disk.SameBut settings.target before.disk world.disk
      rcases follows.saved unfixed with ⟨_, -, hsame⟩ | ⟨_, _, -, ⟨-, hsame⟩ | hwrite⟩
      · exact hsame ▸ .refl _ _
      · exact hsame ▸ .refl _ _
      · exact Disk.sameBut_of_write hwrite

-- ========================================================== the histories

theorem saves_cons (step : Step σ) (steps : List (Step σ)) :
    saves (step :: steps) = saves [step] ++ saves steps :=
  List.filterMap_append (l := [step]) ..

/-- A history changes at most the target. -/
theorem Chained.sameBut (leave : services.LeaveDisk) (unfixed : settings.fixer = .disabled)
    {before : World σ} {steps : List (Step σ)} (chained : Chained services settings before steps) :
    Disk.SameBut settings.target before.disk (worldAfter before steps).disk := by
  induction steps generalizing before with
  | nil => exact .refl _ _
  | cons step steps ih =>
      obtain ⟨-, follows, hrest⟩ := chained
      exact (follows.sameBut leave unfixed).trans (ih hrest)

/-- A history without saves changes nothing. -/
theorem Chained.untouched (leave : services.LeaveDisk) {before : World σ}
    {steps : List (Step σ)} (chained : Chained services settings before steps)
    (hnone : saves steps = []) : (worldAfter before steps).disk = before.disk := by
  induction steps generalizing before with
  | nil => rfl
  | cons step steps ih =>
      obtain ⟨-, follows, hrest⟩ := chained
      rw [saves_cons, List.append_eq_nil_iff] at hnone
      exact (ih hrest hnone.2).trans (follows.disk_eq leave hnone.1)

/-- A target that cannot be read is not written either. -/
theorem Chained.unreadable (leave : services.LeaveDisk) (unfixed : settings.fixer = .disabled)
    {before : World σ} {steps : List (Step σ)} (chained : Chained services settings before steps)
    {error : TestFile.SaveError}
    (hunreadable : TestFile.textBefore before.disk settings.target = .error error) :
    (worldAfter before steps).disk = before.disk := by
  induction steps generalizing before with
  | nil => rfl
  | cons step steps ih =>
      obtain ⟨-, follows, hrest⟩ := chained
      have hsame : step.world.disk = before.disk := by
        cases step with
        | asked | executed => exact follows.disk_eq leave rfl
        | saved test result world =>
            rcases follows.saved unfixed with ⟨_, -, hsame⟩ | ⟨text, created, htext, -⟩
            · exact hsame
            · cases hunreadable.symm.trans htext
      exact (ih hrest (hsame ▸ hunreadable)).trans hsame

/-- What a history leaves in the target: its text from before with the saved
tests merged into it. -/
theorem Chained.readText_eq (leave : services.LeaveDisk) (unfixed : settings.fixer = .disabled)
    {before : World σ} {steps : List (Step σ)} (chained : Chained services settings before steps)
    (allWrite : AllWrite settings before.disk steps) {text : List Char} {created : Bool}
    (htext : TestFile.textBefore before.disk settings.target = .ok (text, created))
    (hsome : saves steps ≠ []) : (worldAfter before steps).disk.readText settings.target
      = .ok (merged settings.package text (saves steps)) := by
  induction steps generalizing before text created with
  | nil => exact absurd rfl hsome
  | cons step steps ih =>
      obtain ⟨-, follows, hrest⟩ := chained
      obtain ⟨writes, allWrite⟩ := allWrite
      cases step with
      | asked | executed =>
          rw [← follows.disk_eq leave rfl] at htext
          exact ih hrest allWrite htext hsome
      | saved test result world =>
          obtain ⟨after, hwrite⟩ := writes text created htext
          obtain rfl : after = world.disk := by
            rcases follows.saved unfixed with ⟨_, hnone, -⟩ | ⟨_, _, hsame, hdone⟩
            · cases hnone.symm.trans htext
            · cases hsame.symm.trans htext
              rcases hdone with ⟨⟨_, hfault⟩, -⟩ | hdone
              · cases hfault.symm.trans hwrite
              · exact Except.ok.inj (hwrite.symm.trans hdone)
          have hread := TestFile.readText_of_write hwrite
          by_cases hnone : saves steps = []
          · have huntouched : (worldAfter world steps).disk = world.disk :=
              Chained.untouched leave hrest hnone
            show (worldAfter world steps).disk.readText settings.target = _
            rw [huntouched, saves_cons, hnone]
            exact hread
          · exact ih hrest allWrite (TestFile.textBefore_of_readText hread) hnone

-- ======================================================== the executions

/-- An execution comes right after the save of its test. -/
def ExecutesSaved (steps : List (Step σ)) : Prop :=
  ∀ earlier test invocation result world later,
    steps = earlier ++ .executed test invocation result world :: later →
      ∃ front written saved, earlier = front ++ [.saved test (.ok written) saved]

theorem Tried.executesSaved {conversation : Prompt.Conversation} {before : World σ}
    {taken : List (Step σ)} {result : Except Failure Attempt}
    (tried : Tried settings conversation before taken result) : ExecutesSaved taken := by
  intro earlier test invocation output world later htaken
  -- only the third step of an attempt is an execution
  cases tried <;> rcases earlier with _ | ⟨_, _ | ⟨_, _ | ⟨_, earlier⟩⟩⟩ <;>
    simp at htaken
  all_goals
    obtain ⟨rfl, rfl, ⟨rfl, -⟩, -⟩ := htaken
    exact ⟨[_], _, _, rfl⟩

theorem Course.executesSaved {left : Nat} {session : Session} {before : World σ}
    {taken : List (Step σ)} {result : Except Failure Report}
    (course : Course settings left session before taken result) : ExecutesSaved taken := by
  induction course with
  | brokenOff tried | passed tried | exhausted tried => exact tried.executesSaved
  | @again left session before taken attempted more result tried failed rest ih =>
      intro earlier test invocation output world later htaken
      rcases List.append_eq_append_iff.mp htaken with
        ⟨between, rfl, hmore⟩ | ⟨between, hfirst, hlast⟩
      · obtain ⟨front, written, saved, rfl⟩ := ih _ _ _ _ _ _ hmore
        exact ⟨taken ++ front, written, saved, (List.append_assoc ..).symm⟩
      · rcases between with _ | ⟨step, between⟩
        · obtain ⟨front, _, _, hfront⟩ := ih [] _ _ _ _ _ hlast.symm
          exact absurd hfront.symm (by simp)
        · obtain ⟨rfl, -⟩ := List.cons.inj hlast
          exact tried.executesSaved _ _ _ _ _ _ hfirst

-- ============================================================== the run

/-- What the steps of a run make of a disk. `text` is what the target held
before, where no file counts as an empty one. -/
structure SavesTests (settings : Settings) (before : Disk) (taken : List (Step σ))
    (after : Disk) : Prop where
  /-- No other file differs. -/
  frame : ∀ location, after.locate settings.target ≠ .ok location →
    after.entry? location = before.entry? location
  untouched : saves taken = [] → after = before
  /-- What holds no text is not written. -/
  unreadable : ∀ error, TestFile.textBefore before settings.target = .error error →
    after = before
  content : AllWrite settings before taken → saves taken ≠ [] → ∀ text created,
    TestFile.textBefore before settings.target = .ok (text, created) →
      after.readText settings.target = .ok (merged settings.package text (saves taken))

/-- A run whose services write no files, and that has no fixer, changes only the
target. However it ends, the target holds its old text with every test merged
into it whose saving was begun, in their order; and what was executed had just
been saved. -/
theorem run_savesTests (leave : services.LeaveDisk) (unfixed : settings.fixer = .disabled)
    (initial : List Char) (before : State σ) :
    ∃ taken result after,
      run services settings initial before = (result, after)
        ∧ Takes services settings before taken after
        ∧ SavesTests settings before.world.disk taken after.world.disk
        ∧ ExecutesSaved taken := by
  obtain ⟨taken, result, after, hrun, htakes, hcourse⟩ :=
    run_course services settings initial before
  refine ⟨taken, result, after, hrun, htakes, ?_, hcourse.executesSaved⟩
  have chained := htakes.chained
  rw [htakes.world]
  exact {
    frame := (chained.sameBut leave unfixed).frame
    untouched := chained.untouched leave
    unreadable := fun _ hunreadable => chained.unreadable leave unfixed hunreadable
    content := fun allWrite hsome _ _ htext =>
      chained.readText_eq leave unfixed allWrite htext hsome }

/-- Services that answer with another test once one was run. The first test fails and
the other passes; `own` counts those that were run. -/
def relenting : Services Nat where
  answer _ world := (.ok (if world.own = 0 then "func TestAdd(t *testing.T) \x7b\x7d".toList
    else "func TestSum(t *testing.T) \x7b\x7d".toList), world)
  execute _ world := (.ok
    { success := world.own != 0
      code := some (if world.own = 0 then 1 else 0)
      stdout := if world.own = 0
        then "--- FAIL: TestAdd (0.00s)\n    calc_test.go:3: got 3\nFAIL\n".toList else []
      stderr := [] }, { world with own := world.own + 1 })
  machine _ disk := (.error .notFound, disk)

/-- A run in a directory with a single file, which may follow up one failure. -/
def calcSettings : Settings where
  root := "/calc"
  target := "/calc/calc_test.go"
  package := "calc"
  fixer := .disabled
  rounds := 1
  repairMalformed := false

/-- Such a directory, before the run. -/
def calcState : State Nat :=
  ⟨⟨Disk.empty.plant ["calc", "go.mod"] (.file (.text "module calc".toList)), false, 0⟩, [], []⟩

/-- The failed test stays in the file, and the other is merged into it. -/
theorem run_savesTests_relenting : relenting.LeaveDisk
    ∧ (run relenting calcSettings [] calcState).2.world.disk.readText calcSettings.target
      = .ok ("package calc\n\nfunc TestAdd(t *testing.T) \x7b\x7d\n\n"
          ++ "func TestSum(t *testing.T) \x7b\x7d\n").toList
    ∧ ∃ taken result after, run relenting calcSettings [] calcState = (result, after)
      ∧ Takes relenting calcSettings calcState taken after
      ∧ saves taken = [⟨"TestAdd", "func TestAdd(t *testing.T) \x7b\x7d".toList⟩,
          ⟨"TestSum", "func TestSum(t *testing.T) \x7b\x7d".toList⟩]
      ∧ SavesTests calcSettings calcState.world.disk taken after.world.disk
      ∧ ExecutesSaved taken := by
  have leave : relenting.LeaveDisk := ⟨fun _ _ => rfl, fun _ _ => rfl⟩
  have unfixed : calcSettings.fixer = .disabled := rfl
  obtain ⟨htext, hsaves⟩ :
      (run relenting calcSettings [] calcState).2.world.disk.readText calcSettings.target
        = .ok ("package calc\n\nfunc TestAdd(t *testing.T) \x7b\x7d\n\n"
            ++ "func TestSum(t *testing.T) \x7b\x7d\n").toList
      ∧ saves (run relenting calcSettings [] calcState).2.steps
        = [⟨"TestAdd", "func TestAdd(t *testing.T) \x7b\x7d".toList⟩,
            ⟨"TestSum", "func TestSum(t *testing.T) \x7b\x7d".toList⟩] := by
    decide +kernel
  obtain ⟨taken, result, after, hrun, htakes, savesTests, hexecutes⟩ :=
    run_savesTests leave unfixed [] calcState
  obtain rfl : after.steps = taken := htakes.steps
  rw [hrun] at hsaves
  exact ⟨leave, htext, _, result, after, hrun, htakes, hsaves, savesTests, hexecutes⟩

end Assay.Repair
