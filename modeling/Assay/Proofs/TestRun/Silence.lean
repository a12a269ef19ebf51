/-
Failures that say nothing.

The verdict on a failed run carries a message, and the message can be empty: a
compiler may report positions without a word, and a test may fail without one.
`Mute` says when, in terms of what was printed, and `classify_blank_iff` that
this is exactly when the verdict's message is blank.
-/
import Assay.Proofs.Text.Blank
import Assay.Proofs.Text.Search
import Assay.TestRun.Verdict

namespace Assay.TestRun

open Text

/-- The message of a verdict, if the run failed. -/
def Verdict.message? : Verdict → Option (List Char)
  | passed => none
  | compileFailed diagnostic | runtimeFailed diagnostic => some diagnostic

/-- The messages of a compiler, line by line. -/
def compilerMessages (stderr : List Char) : List (List Char) :=
  (lines stderr).filterMap diagnostic?

/-- A failed test is not explained: only blanks follow the first mention of an
error; or there is none, nothing panicked, and the first logged line is
empty. -/
def Unexplained (stdout : List Char) : Prop :=
  match splitOnce? "Error:".toList stdout with
  | some (_, rest) => allBlank rest = true
  | none => panicMessage? stdout = none ∧ (lines stdout).findSome? loggedMessage? = some []

/-- A failed run says nothing about what went wrong. -/
inductive Mute (output : ProcessOutput) : Prop where
  /-- The compiler reports positions, and not one message. -/
  | compiler (reported : compilerMessages output.stderr ≠ [])
      (silent : ∀ message ∈ compilerMessages output.stderr, message = [])
  | test (compiled : compilerMessages output.stderr = [])
      (unexplained : Unexplained output.stdout)

-- ==================================================== compiler messages

/-- A compiler's message begins with its first word. -/
theorem lastMessage?_eq_trimStart {text message : List Char}
    (hmessage : lastMessage? text = some message) : ∃ rest, message = trimStart rest := by
  induction text with
  | nil => simp [lastMessage?] at hmessage
  | cons c text ih =>
      rw [lastMessage?, Option.or_eq_some_iff] at hmessage
      rcases hmessage with hlater | ⟨-, hhere⟩
      · exact ih hlater
      · simp only [messageHere?, Option.bind_eq_bind, Option.bind_eq_some_iff] at hhere
        obtain ⟨-, -, -, -, rest, -, hblanks⟩ := hhere
        cases rest with
        | nil => simp [messageAfterBlanks?] at hblanks
        | cons d rest =>
            simp only [messageAfterBlanks?] at hblanks
            split at hblanks
            · exact ⟨rest, (Option.some.inj hblanks).symm⟩
            · simp at hblanks

/-- A compiler's message is blank only if it is empty. -/
theorem allBlank_compilerMessage {stderr message : List Char}
    (hmem : message ∈ compilerMessages stderr) :
    allBlank message = true ↔ message = [] := by
  obtain ⟨line, -, hline⟩ := List.mem_filterMap.mp hmem
  cases line with
  | nil => simp [diagnostic?] at hline
  | cons c line =>
      simp only [diagnostic?] at hline
      split at hline
      · simp at hline
      · obtain ⟨rest, rfl⟩ := lastMessage?_eq_trimStart hline
        exact allBlank_trimStart

theorem compileErrors_eq (stderr : List Char) :
    compileErrors stderr = (compilerMessages stderr).flatMap (· ++ ['\n']) := rfl

/-- Nothing is extracted exactly when no line has a message, not even an empty
one. -/
theorem compileErrors_eq_nil_iff {stderr : List Char} :
    compileErrors stderr = [] ↔ compilerMessages stderr = [] := by
  rw [compileErrors_eq, List.flatMap_eq_nil_iff]
  constructor
  · intro hnone
    refine List.eq_nil_iff_forall_not_mem.mpr fun message hmem => ?_
    simpa using hnone message hmem
  · intro hnone
    rw [hnone]
    exact fun message hmem => absurd hmem (List.not_mem_nil)

/-- What is extracted is blank exactly when every message is empty. -/
theorem allBlank_compileErrors {stderr : List Char} :
    allBlank (compileErrors stderr) = true ↔ ∀ message ∈ compilerMessages stderr, message = [] := by
  rw [compileErrors_eq, allBlank_iff]
  constructor
  · intro hblank message hmem
    refine (allBlank_compilerMessage hmem).mp (allBlank_iff.mpr fun c hc => hblank c ?_)
    exact List.mem_flatMap.mpr ⟨message, hmem, List.mem_append_left _ hc⟩
  · intro hempty c hc
    obtain ⟨message, hmem, hc⟩ := List.mem_flatMap.mp hc
    rw [hempty message hmem, List.nil_append, List.mem_singleton] at hc
    rw [hc]
    rfl

-- ======================================================== test failures

/-- The line after the mention of an error is blank only if the text ends
there. -/
theorem allBlank_line_iff {rest : List Char} :
    allBlank (trim ((trimStart rest).takeWhile (· ≠ '\n'))) = true ↔ allBlank rest = true := by
  rw [allBlank_trim, trim_eq_nil_iff]
  refine Iff.trans ?_ trimStart_eq_nil_iff
  cases hstart : trimStart rest with
  | nil => simp [allBlank]
  | cons c text =>
      -- the first character that is left is no blank, so it is no line break
      have hvisible : isBlank c = false := by
        have hhead := List.head?_dropWhile_not isBlank rest
        rw [show rest.dropWhile isBlank = c :: text from hstart] at hhead
        simpa using hhead
      have hline : c ≠ '\n' := by
        rintro rfl
        exact absurd hvisible (by decide)
      simp [allBlank, hline, hvisible]

/-- A line that reports a panic is not blank. -/
theorem not_allBlank_panicMessage {stdout message : List Char}
    (hpanic : panicMessage? stdout = some message) : allBlank message = false := by
  obtain ⟨rest, rfl⟩ := eq_append_of_beginsWith (List.find?_some hpanic)
  rfl

/-- A logged message is blank only if it is empty. -/
theorem allBlank_loggedMessage {line message : List Char}
    (hlogged : loggedMessage? line = some message) : allBlank message = true ↔ message = [] := by
  simp only [loggedMessage?, Option.bind_eq_bind, Option.bind_eq_some_iff] at hlogged
  obtain ⟨text, -, hmessage⟩ := hlogged
  split at hmessage
  · obtain ⟨rest, -, rfl⟩ := Option.map_eq_some_iff.mp hmessage
    exact allBlank_trim
  · simp at hmessage

theorem not_allBlank_missingMessage : allBlank missingMessage = false := rfl

/-- The message of a failed test is blank exactly when the failure is not
explained. -/
theorem allBlank_failureMessage {stdout message : List Char}
    (hfailed : failureMessage? stdout = some message) :
    allBlank message = true ↔ Unexplained stdout := by
  unfold failureMessage? at hfailed
  split at hfailed
  case isFalse => simp at hfailed
  case isTrue =>
    unfold Unexplained
    obtain rfl := Option.some.inj hfailed
    cases herror : splitOnce? "Error:".toList stdout with
    | some split =>
        obtain ⟨before, rest⟩ := split
        simp only [assertionMessage?, herror, Option.map_some, Option.some_or, Option.getD_some]
        exact allBlank_line_iff
    | none =>
        simp only [assertionMessage?, herror, Option.map_none, Option.none_or]
        cases hpanic : panicMessage? stdout with
        | some panic => simp [not_allBlank_panicMessage hpanic]
        | none =>
            simp only [Option.none_or, true_and]
            cases hlogged : (lines stdout).findSome? loggedMessage? with
            | none => simp [not_allBlank_missingMessage]
            | some logged =>
                obtain ⟨line, -, hline⟩ := List.exists_of_findSome?_eq_some hlogged
                simpa using allBlank_loggedMessage hline

-- ============================================================= verdicts

/-- The message of a verdict is blank exactly when the run says nothing. -/
theorem classify_blank_iff {invocation : Invocation} {output : ProcessOutput}
    {verdict : Verdict} {message : List Char}
    (hverdict : classify invocation output = .ok verdict)
    (hmessage : verdict.message? = some message) :
    allBlank message = true ↔ Mute output := by
  unfold classify at hverdict
  split at hverdict
  · split at hverdict
    · simp at hverdict
    · obtain rfl := Except.ok.inj hverdict
      simp [Verdict.message?] at hmessage
  · split at hverdict
    next hsome =>
      have hreported : compilerMessages output.stderr ≠ [] := by
        rw [Ne, ← compileErrors_eq_nil_iff, hsome]
        exact List.cons_ne_nil _ _
      obtain rfl := Except.ok.inj hverdict
      obtain rfl := Option.some.inj hmessage
      rw [allBlank_compileErrors]
      constructor
      · exact .compiler hreported
      · rintro (⟨-, hsilent⟩ | ⟨hcompiled, -⟩)
        · exact hsilent
        · exact absurd hcompiled hreported
    next hnone =>
      have hcompiled := compileErrors_eq_nil_iff.mp hnone
      split at hverdict
      next failure hfailure =>
        obtain rfl := Except.ok.inj hverdict
        obtain rfl := Option.some.inj hmessage
        rw [allBlank_failureMessage hfailure]
        constructor
        · exact .test hcompiled
        · rintro (⟨hreported, -⟩ | ⟨-, hunexplained⟩)
          · exact absurd hcompiled hreported
          · exact hunexplained
      next => simp at hverdict

end Assay.TestRun
