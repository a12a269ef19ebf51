/-
What is taken from a compiler's output. A line is a diagnostic when it can be
split at a position in a Go file (`Report`); it may be possible in several
places, and the message is what follows the last of them. The scanner looks for
that place from the end of the line, so it never goes back; `Reported` says what
it should find by comparing all splits of the line.
-/
import Assay.Proofs.Text.Lines
import Assay.Proofs.TestRun.Silence

namespace Assay.TestRun

open Text

variable {text line message rest : List Char}

-- ============================================================ the splits

/-- A number as it is printed: digits, and at least one. -/
structure IsNumber (digits : List Char) : Prop where
  some : digits ≠ []
  all : ∀ c ∈ digits, isDecimal c = true

/-- A gap in a line: blanks, and at least one. -/
structure IsGap (gap : List Char) : Prop where
  some : gap ≠ []
  all : allBlank gap = true

/-- A line split into a character other than `#`, any text, the ending of a Go
file, two numbers, a gap, and a message. -/
structure Report (line : List Char) where
  first : Char
  before : List Char
  row : List Char
  column : List Char
  gap : List Char
  message : List Char
  first_ne : first ≠ '#'
  row_isNumber : IsNumber row
  column_isNumber : IsNumber column
  gap_isGap : IsGap gap
  line_eq : line = first :: (before ++ (".go:".toList
    ++ (row ++ ':' :: (column ++ ':' :: (gap ++ message)))))

/-- The line is a diagnostic. -/
def IsDiagnostic (line : List Char) : Prop := Nonempty (Report line)

/-- The message of a diagnostic: what follows the last place where the line can be
split, without the blanks in front. -/
def Reported (line message : List Char) : Prop :=
  ∃ report : Report line, (∀ other : Report line, other.before.length ≤ report.before.length)
    ∧ message = trimStart (report.gap ++ report.message)

/-- The messages of the diagnostics among some lines, each on a line of its
own. -/
inductive Extracted : (lines : List (List Char)) → List Char → Prop where
  | nil : Extracted [] []
  | diagnostic {line message : List Char} {lines : List (List Char)} {text : List Char}
      (reported : Reported line message) (rest : Extracted lines text) :
      Extracted (line :: lines) (message ++ '\n' :: text)
  | other {line : List Char} {lines : List (List Char)} {text : List Char}
      (other : ¬ IsDiagnostic line) (rest : Extracted lines text) : Extracted (line :: lines) text

-- =========================================================== the scanner

/-- No digit is a colon, so a number ends at the first colon. -/
theorem afterNumber?_eq_some_iff :
    afterNumber? text = some rest ↔ ∃ digits, IsNumber digits ∧ text = digits ++ ':' :: rest := by
  unfold afterNumber?
  constructor
  · intro hafter
    have hsplit := List.takeWhile_append_dropWhile (p := isDecimal) (l := text)
    split at hafter
    · next c digits rest' hdigits hrest =>
        obtain rfl := Option.some.inj hafter
        refine ⟨c :: digits, ⟨List.cons_ne_nil c digits, fun d hd => ?_⟩, ?_⟩
        · exact List.mem_takeWhile_imp (hdigits ▸ hd)
        · rw [← hsplit, hdigits, hrest]
    · cases hafter
  · rintro ⟨digits, ⟨hsome, hall⟩, rfl⟩
    have hcolon : ∀ c ∈ (':' :: rest).head?, isDecimal c = false := by simp; decide
    obtain ⟨c, digits, rfl⟩ := List.exists_cons_of_ne_nil hsome
    rw [takeWhile_stretch hall hcolon, dropWhile_stretch hall hcolon]
    rfl

theorem messageAfterBlanks?_eq_some_iff : messageAfterBlanks? text = some message ↔
    ∃ gap rest, IsGap gap ∧ text = gap ++ rest ∧ message = trimStart text := by
  constructor
  · intro hmessage
    cases text with
    | nil => cases hmessage
    | cons c text =>
        rw [messageAfterBlanks?] at hmessage
        split at hmessage
        · next hblank =>
            obtain rfl := Option.some.inj hmessage
            refine ⟨[c], text, ⟨List.cons_ne_nil c [], by simp [allBlank, hblank]⟩, rfl, ?_⟩
            rw [trimStart, trimStart, List.dropWhile_cons_of_pos hblank]
        · cases hmessage
  · rintro ⟨gap, rest, ⟨hsome, hall⟩, rfl, rfl⟩
    obtain ⟨c, gap, rfl⟩ := List.exists_cons_of_ne_nil hsome
    have hblank : isBlank c = true := allBlank_iff.mp hall c List.mem_cons_self
    rw [List.cons_append, messageAfterBlanks?, if_pos hblank, trimStart, trimStart,
      List.dropWhile_cons_of_pos hblank]

/-- A position is read off the front of a text exactly when the text can be split
so. -/
theorem messageHere?_eq_some_iff : messageHere? text = some message ↔
    ∃ row column gap rest, IsNumber row ∧ IsNumber column ∧ IsGap gap
      ∧ text = ".go:".toList ++ (row ++ ':' :: (column ++ ':' :: (gap ++ rest)))
      ∧ message = trimStart (gap ++ rest) := by
  simp only [messageHere?, Option.bind_eq_bind, Option.bind_eq_some_iff, after?_eq_some_iff,
    afterNumber?_eq_some_iff, messageAfterBlanks?_eq_some_iff]
  constructor
  · rintro ⟨-, rfl, -, ⟨row, hrow, rfl⟩, -, ⟨column, hcolumn, rfl⟩, gap, rest, hgap, rfl, rfl⟩
    exact ⟨row, column, gap, rest, hrow, hcolumn, hgap, rfl, rfl⟩
  · rintro ⟨row, column, gap, rest, hrow, hcolumn, hgap, rfl, rfl⟩
    exact ⟨_, rfl, _, ⟨row, hrow, rfl⟩, _, ⟨column, hcolumn, rfl⟩, gap, rest, hgap, rfl, rfl⟩

/-- Nothing is found in a text exactly when no position begins anywhere in it. -/
theorem lastMessage?_eq_none_iff : lastMessage? text = none ↔
    ∀ before rest, text = before ++ rest → messageHere? rest = none := by
  induction text with
  | nil =>
      refine iff_of_true rfl fun before rest hsplit => ?_
      rw [(List.append_eq_nil_iff.mp hsplit.symm).2]
      rfl
  | cons c text ih =>
      rw [lastMessage?, Option.or_eq_none_iff, ih]
      constructor
      · rintro ⟨hlater, hhere⟩ before rest hsplit
        cases before with
        | nil =>
            obtain rfl : c :: text = rest := hsplit
            exact hhere
        | cons d before => exact hlater before rest (List.cons.inj hsplit).2
      · intro hnone
        exact ⟨fun before rest hsplit => hnone (c :: before) rest (congrArg (c :: ·) hsplit),
          hnone [] _ rfl⟩

/-- What is found in a text follows the last place where a position begins. -/
theorem lastMessage?_eq_some_iff : lastMessage? text = some message ↔
    ∃ before rest, text = before ++ rest ∧ messageHere? rest = some message
      ∧ ∀ before' rest', text = before' ++ rest' → messageHere? rest' ≠ none →
        before'.length ≤ before.length := by
  induction text with
  | nil =>
      refine iff_of_false nofun ?_
      rintro ⟨before, rest, hsplit, hhere, -⟩
      rw [(List.append_eq_nil_iff.mp hsplit.symm).2] at hhere
      cases hhere
  | cons c text ih =>
      rw [lastMessage?, Option.or_eq_some_iff, ih, lastMessage?_eq_none_iff]
      constructor
      · rintro (⟨before, rest, rfl, hhere, hlast⟩ | ⟨hnone, hhere⟩)
        · refine ⟨c :: before, rest, rfl, hhere, fun before' rest' hsplit hfound => ?_⟩
          cases before' with
          | nil => exact Nat.zero_le _
          | cons d before' =>
              exact Nat.succ_le_succ (hlast before' rest' (List.cons.inj hsplit).2 hfound)
        · refine ⟨[], c :: text, rfl, hhere, fun before' rest' hsplit hfound => ?_⟩
          cases before' with
          | nil => exact Nat.le_refl 0
          | cons d before' =>
              exact absurd (hnone before' rest' (List.cons.inj hsplit).2) hfound
      · rintro ⟨before, rest, hsplit, hhere, hlast⟩
        cases before with
        | nil =>
            -- the split at the very front is the last one, so nothing is found later
            refine .inr ⟨fun before' rest' hsplit' => ?_, hsplit ▸ hhere⟩
            by_contra hfound
            exact absurd (hlast (c :: before') rest' (congrArg (c :: ·) hsplit') hfound)
              (Nat.not_succ_le_zero _)
        | cons d before =>
            refine .inl ⟨before, rest, (List.cons.inj hsplit).2, hhere,
              fun before' rest' hsplit' hfound => ?_⟩
            exact Nat.le_of_succ_le_succ
              (hlast (c :: before') rest' (congrArg (c :: ·) hsplit') hfound)

-- ============================================================= the lines

/-- A position in a line, behind its first character, is a split of the line. -/
theorem exists_report {first : Char} (hfirst : first ≠ '#') (before : List Char)
    (hhere : messageHere? rest = some message) : ∃ report : Report (first :: (before ++ rest)),
      report.before = before ∧ message = trimStart (report.gap ++ report.message) := by
  obtain ⟨row, column, gap, last, hrow, hcolumn, hgap, rfl, rfl⟩ :=
    messageHere?_eq_some_iff.mp hhere
  exact ⟨⟨first, before, row, column, gap, last, hfirst, hrow, hcolumn, hgap, rfl⟩, rfl, rfl⟩

/-- Every split of a line shows a position behind its first character. -/
theorem Report.exists_position (report : Report line) : report.first ≠ '#' ∧
    ∃ rest, line = report.first :: (report.before ++ rest)
      ∧ messageHere? rest = some (trimStart (report.gap ++ report.message)) := by
  refine ⟨report.first_ne, _, report.line_eq, messageHere?_eq_some_iff.mpr ?_⟩
  exact ⟨_, _, _, _, report.row_isNumber, report.column_isNumber, report.gap_isGap, rfl, rfl⟩

/-- A message is found in a line exactly when it follows the last position. -/
theorem diagnostic?_eq_some_iff : diagnostic? line = some message ↔ Reported line message := by
  cases line with
  | nil =>
      refine iff_of_false (Option.some_ne_none message).symm ?_
      rintro ⟨report, -⟩
      cases report.line_eq
  | cons c line =>
      rw [diagnostic?]
      split
      · next hheading =>
          refine iff_of_false (Option.some_ne_none message).symm ?_
          rintro ⟨report, -⟩
          exact report.first_ne ((List.cons.inj report.line_eq).1.symm.trans hheading)
      · next hfirst =>
          rw [lastMessage?_eq_some_iff]
          constructor
          · rintro ⟨before, rest, rfl, hhere, hlast⟩
            obtain ⟨report, hbefore, rfl⟩ := exists_report hfirst before hhere
            refine ⟨report, fun other => ?_, rfl⟩
            obtain ⟨-, rest', hline, hhere'⟩ := other.exists_position
            rw [hbefore]
            exact hlast other.before rest' (List.cons.inj hline).2 (hhere' ▸ Option.some_ne_none _)
          · rintro ⟨report, hlast, rfl⟩
            obtain ⟨-, rest, hline, hhere⟩ := report.exists_position
            refine ⟨report.before, rest, (List.cons.inj hline).2, hhere,
              fun before' rest' hsplit hfound => ?_⟩
            obtain ⟨message', hhere'⟩ := Option.ne_none_iff_exists'.mp hfound
            obtain rfl := hsplit
            obtain ⟨other, hbefore, -⟩ := exists_report hfirst before' hhere'
            have hother := hlast other
            rwa [hbefore] at hother

/-- A line is a diagnostic exactly when a message is found in it, be it empty. -/
theorem isDiagnostic_iff : IsDiagnostic line ↔ (diagnostic? line).isSome = true := by
  rw [Option.isSome_iff_exists]
  constructor
  · rintro ⟨report⟩
    obtain ⟨hfirst, rest, hline, hhere⟩ := report.exists_position
    have hfound : diagnostic? line = lastMessage? (report.before ++ rest) :=
      (congrArg diagnostic? hline).trans (if_neg hfirst)
    rw [hfound]
    refine Option.ne_none_iff_exists'.mp fun hnone => ?_
    rw [lastMessage?_eq_none_iff.mp hnone report.before rest rfl] at hhere
    cases hhere
  · rintro ⟨message, hmessage⟩
    obtain ⟨report, -⟩ := diagnostic?_eq_some_iff.mp hmessage
    exact ⟨report⟩

instance : DecidablePred IsDiagnostic := fun _ => decidable_of_iff _ isDiagnostic_iff.symm

theorem Reported.isDiagnostic (reported : Reported line message) : IsDiagnostic line :=
  reported.nonempty

/-- A message is the end of its line. -/
theorem Reported.suffix (reported : Reported line message) : message <:+ line := by
  obtain ⟨report, -, rfl⟩ := reported
  refine (List.dropWhile_suffix isBlank).trans ?_
  refine ⟨report.first :: (report.before ++ (".go:".toList
    ++ (report.row ++ ':' :: (report.column ++ [':'])))), ?_⟩
  simpa using report.line_eq.symm

-- ============================================================== the text

variable {lines : List (List Char)}

/-- What is extracted from lines, and nothing else, is what the scanner finds. -/
theorem extracted_iff : Extracted lines text ↔
    text = (lines.filterMap diagnostic?).flatMap (· ++ ['\n']) := by
  constructor
  · intro extracted
    induction extracted with
    | nil => rfl
    | diagnostic reported _ ih =>
        rw [List.filterMap_cons_some (diagnostic?_eq_some_iff.mpr reported), List.flatMap_cons,
          ← ih, List.append_assoc, List.singleton_append]
    | other other _ ih =>
        rw [isDiagnostic_iff, Option.not_isSome_iff_eq_none] at other
        rw [List.filterMap_cons_none other, ih]
  · rintro rfl
    induction lines with
    | nil => exact .nil
    | cons line lines ih =>
        cases hfound : diagnostic? line with
        | none =>
            rw [List.filterMap_cons_none hfound]
            exact .other (by simp [isDiagnostic_iff, hfound]) ih
        | some message =>
            rw [List.filterMap_cons_some hfound, List.flatMap_cons, List.append_assoc,
              List.singleton_append]
            exact .diagnostic (diagnostic?_eq_some_iff.mp hfound) ih

/-- Nothing is extracted exactly from lines without a diagnostic. -/
theorem Extracted.eq_nil_iff (extracted : Extracted lines text) :
    text = [] ↔ ∀ line ∈ lines, ¬ IsDiagnostic line := by
  induction extracted with
  | nil => exact iff_of_true rfl (List.forall_mem_nil _)
  | diagnostic reported rest =>
      refine iff_of_false (by simp) fun hnone => hnone _ List.mem_cons_self ?_
      exact reported.isDiagnostic
  | other other rest ih => rw [ih, List.forall_mem_cons, and_iff_right other]

/-- As many lines are extracted as there are diagnostics. -/
theorem Extracted.count_feed (extracted : Extracted lines text)
    (hlines : ∀ line ∈ lines, '\n' ∉ line) :
    text.count '\n' = lines.countP fun line => IsDiagnostic line := by
  induction extracted with
  | nil => rfl
  | diagnostic reported rest ih =>
      obtain ⟨hline, hlines⟩ := List.forall_mem_cons.mp hlines
      have hmessage := List.count_eq_zero.mpr fun hmem => hline (reported.suffix.subset hmem)
      rw [List.count_append, hmessage, List.count_cons_self, Nat.zero_add, ih hlines,
        List.countP_cons, if_pos (decide_eq_true reported.isDiagnostic)]
  | other other rest ih =>
      rw [ih (List.forall_mem_cons.mp hlines).2, List.countP_cons_of_neg (by simpa using other)]

/-- An empty line adds nothing, so a feed at the end of a text does not either. -/
theorem compileErrors_append {first : List Char} (hreturn : first.getLast? ≠ some '\r')
    (more : List Char) :
    compileErrors (first ++ '\n' :: more) = compileErrors first ++ compileErrors more := by
  have hfeed : (Text.lines (first ++ ['\n'])).filterMap diagnostic?
      = (Text.lines first).filterMap diagnostic? := by
    rcases lines_feed hreturn with hlines | hlines <;> rw [hlines]
    rw [List.filterMap_append]
    exact List.append_nil _
  rw [compileErrors, lines_append, List.filterMap_append, List.flatMap_append, hfeed,
    compileErrors, compileErrors]

/-- From a compiler's output, the messages of its diagnostics are taken, in order,
each on a line of its own; nothing is taken when there are none. Two outputs can
be read one after the other. -/
theorem compileErrors_extracted (stderr : List Char) :
    (∀ text, Extracted (Text.lines stderr) text ↔ text = compileErrors stderr)
      ∧ (compileErrors stderr = [] ↔ ∀ line ∈ Text.lines stderr, ¬ IsDiagnostic line)
      ∧ (compileErrors stderr).count '\n'
        = (Text.lines stderr).countP (fun line => IsDiagnostic line)
      ∧ ∀ more, stderr.getLast? ≠ some '\r' →
        compileErrors (stderr ++ '\n' :: more) = compileErrors stderr ++ compileErrors more := by
  have extracted : Extracted (Text.lines stderr) (compileErrors stderr) := extracted_iff.mpr rfl
  exact ⟨fun _ => extracted_iff, extracted.eq_nil_iff,
    extracted.count_feed fun line hmem => (infix_of_mem_lines hmem).2,
    fun more hreturn => compileErrors_append hreturn more⟩

/-- What a compiler prints about a package: a heading, and a diagnostic that
mentions a second position. -/
def buildOutput : List Char :=
  "# example.com/calc\n./calc_test.go:7:9: as calc.go:1:2:  undefined: Sub".toList

/-- The message follows the second position. A further diagnostic without a word
adds a line without a word. -/
theorem compileErrors_extracted_build : buildOutput.getLast? ≠ some '\r'
    ∧ compileErrors buildOutput = "undefined: Sub\n".toList
    ∧ compileErrors (buildOutput ++ '\n' :: "./calc.go:1:1: ".toList)
      = "undefined: Sub\n\n".toList := by
  have hreturn : buildOutput.getLast? ≠ some '\r' := by decide +kernel
  obtain ⟨-, -, -, happend⟩ := compileErrors_extracted buildOutput
  refine ⟨hreturn, by decide +kernel, ?_⟩
  rw [happend _ hreturn]
  decide +kernel

end Assay.TestRun
