/-
What is taken from a failed test's output. Three things may say what went wrong,
and each has its own notion of a line: an assertion, whose message may come after
blank lines; a panic, whose line may be indented; and a logged entry, a line that
begins with a position in a test file (`Entry`). `Cause` says which of them
counts and what its message is, by splits of the output alone.

An entry could only be split in several ways at its second gap: its first gap ends
at the first visible character, and the position ends at the next blank
(`Entry.parts_eq`). So it makes no difference how greedily it is split.
-/
import Assay.Proofs.TestRun.Diagnostics

namespace Assay.TestRun

open Text

variable {text line message stdout : List Char}

-- =========================================================== the entries

/-- A line split into a gap, the name of a test file, which is more than its
ending, a number, a gap, and a message. -/
structure Entry (line : List Char) where
  indent : List Char
  name : List Char
  number : List Char
  gap : List Char
  message : List Char
  indent_isGap : IsGap indent
  name_some : name ≠ []
  name_visible : ∀ c ∈ name, isBlank c = false
  number_isNumber : IsNumber number
  gap_isGap : IsGap gap
  line_eq : line
    = indent ++ (name ++ ("_test.go:".toList ++ (number ++ ':' :: (gap ++ message))))

/-- No part in front of the message is longer in another split. -/
def Entry.IsGreedy (entry : Entry line) : Prop := ∀ other : Entry line,
  other.indent.length ≤ entry.indent.length ∧ other.name.length ≤ entry.name.length
    ∧ other.number.length ≤ entry.number.length ∧ other.gap.length ≤ entry.gap.length

/-- The line is a logged entry. -/
def IsEntry (line : List Char) : Prop := Nonempty (Entry line)

/-- The line reports a panic. -/
def Panics (line : List Char) : Prop := "panic:".toList <+: trim line

/-- An error is mentioned in the output. -/
def MentionsError (stdout : List Char) : Prop := "Error:".toList <:+: stdout

/-- What a failed test's output says about the failure. -/
inductive Cause (stdout : List Char) : (message : List Char) → Prop where
  /-- The first mention of an error: blanks are skipped behind it, line feeds
  included, and the message is the rest of the line that is reached. -/
  | assertion {before gap line after : List Char}
      (mention : stdout = before ++ ("Error:".toList ++ (gap ++ (line ++ after))))
      (first : ∀ before' after', stdout = before' ++ ("Error:".toList ++ after') →
        before.length ≤ before'.length)
      (blank : allBlank gap = true) (visible : ∀ c ∈ (line ++ after).head?, isBlank c = false)
      (within : '\n' ∉ line) (ends : ∀ c ∈ after.head?, c = '\n') : Cause stdout (trim line)
  /-- Else the first line that reports a panic. -/
  | panic {before after : List (List Char)} {line : List Char} (unmentioned : ¬ MentionsError stdout)
      (found : lines stdout = before ++ line :: after) (panics : Panics line)
      (first : ∀ other ∈ before, ¬ Panics other) : Cause stdout (trim line)
  /-- Else the message of the first logged entry. -/
  | logged {before after : List (List Char)} {line : List Char} (unmentioned : ¬ MentionsError stdout)
      (calm : ∀ line ∈ lines stdout, ¬ Panics line) (found : lines stdout = before ++ line :: after)
      (entry : Entry line) (greedy : entry.IsGreedy) (first : ∀ other ∈ before, ¬ IsEntry other) :
      Cause stdout (trim entry.message)
  /-- Else nothing, and a fixed text stands for the message. -/
  | missing (unmentioned : ¬ MentionsError stdout) (calm : ∀ line ∈ lines stdout, ¬ Panics line)
      (unlogged : ∀ line ∈ lines stdout, ¬ IsEntry line) : Cause stdout missingMessage

-- ============================================================== positions

/-- A word is a position in a test file exactly when it can be split so. -/
theorem isTestPosition_iff {word : List Char} : isTestPosition word = true ↔
    ∃ name number, name ≠ [] ∧ IsNumber number
      ∧ word = name ++ ("_test.go:".toList ++ (number ++ [':'])) := by
  constructor
  · intro hposition
    rw [isTestPosition] at hposition
    split at hposition
    · next before hword =>
        have hsplit := List.takeWhile_append_dropWhile (p := isDecimal) (l := before)
        split at hposition
        · next c digits hdigits =>
            split at hposition
            · next name hname =>
                refine ⟨name.reverse, (c :: digits).reverse, by simpa using hposition,
                  ⟨by simp, fun d hd => ?_⟩, ?_⟩
                · exact List.mem_takeWhile_imp (hdigits ▸ List.mem_reverse.mp hd)
                · rw [← List.reverse_inj, hword, ← hsplit, hdigits, after?_eq_some_iff.mp hname]
                  simp
            · cases hposition
        · cases hposition
    · cases hposition
  · rintro ⟨name, number, hname, ⟨hsome, hall⟩, rfl⟩
    have hreverse : (name ++ ("_test.go:".toList ++ (number ++ [':']))).reverse
        = ':' :: (number.reverse ++ ("_test.go:".toList.reverse ++ name.reverse)) := by simp
    have hdigits : ∀ c ∈ number.reverse, isDecimal c = true :=
      fun c hc => hall c (List.mem_reverse.mp hc)
    have hstop : ∀ c ∈ ("_test.go:".toList.reverse ++ name.reverse).head?, isDecimal c = false := by
      simp
      decide
    obtain ⟨c, digits, hnumber⟩ := List.exists_cons_of_ne_nil
      (fun hnil : number.reverse = [] => hsome (List.reverse_eq_nil_iff.mp hnil))
    have htake := (takeWhile_stretch hdigits hstop).trans hnumber
    have hdrop := dropWhile_stretch hdigits hstop
    rw [isTestPosition, hreverse]
    split
    · next before hbefore =>
        obtain rfl := (List.cons.inj hbefore).2
        rw [htake, hdrop]
        dsimp only
        rw [after?_append]
        simpa using hname
    · next hnone => exact absurd rfl (hnone _)

/-- The end of a test file's position is the last colon in it, and the number stands
between the last two. -/
theorem position_inj {name name' number number' : List Char} (hnumber : IsNumber number)
    (hnumber' : IsNumber number')
    (hsame : name ++ ("_test.go:".toList ++ (number ++ [':']))
      = name' ++ ("_test.go:".toList ++ (number' ++ [':']))) : name = name' ∧ number = number' := by
  have hfree {digits : List Char} (hdigits : IsNumber digits) : ':' ∉ digits := by
    intro hmem
    have hcolon := hdigits.all ':' hmem
    revert hcolon
    decide
  have hcolons (name number : List Char) : name ++ ("_test.go:".toList ++ (number ++ [':']))
      = ((name ++ "_test.go".toList) ++ ':' :: number) ++ [':'] := by simp
  rw [hcolons, hcolons] at hsame
  obtain ⟨hname, rfl⟩ := (append_sign_inj (hfree hnumber) (hfree hnumber')).mp
    (List.append_cancel_right hsame)
  exact ⟨List.append_cancel_right hname, rfl⟩

-- ======================================================== logged entries

namespace Entry

/-- The position that the entry begins with, behind its first gap. -/
def position (entry : Entry line) : List Char :=
  entry.name ++ ("_test.go:".toList ++ (entry.number ++ [':']))

theorem line_eq_position (entry : Entry line) :
    line = entry.indent ++ (entry.position ++ (entry.gap ++ entry.message)) := by
  rw [position]
  simpa using entry.line_eq

theorem message_suffix (entry : Entry line) : entry.message <:+ line :=
  ⟨entry.indent ++ (entry.position ++ entry.gap), by simpa using entry.line_eq_position.symm⟩

theorem position_visible (entry : Entry line) : ∀ c ∈ entry.position, isBlank c = false := by
  have hending : ∀ c ∈ "_test.go:".toList, isBlank c = false := by simp; decide
  have hnumber : ∀ c ∈ entry.number, isBlank c = false := fun c hc =>
    isBlank_of_class (by decide +kernel) (entry.number_isNumber.all c hc)
  intro c hc
  simp only [position, List.mem_append, List.mem_singleton] at hc
  rcases hc with hc | hc | hc | rfl
  · exact entry.name_visible c hc
  · exact hending c hc
  · exact hnumber c hc
  · rfl

theorem position_head (entry : Entry line) (rest : List Char) :
    ∀ c ∈ (entry.position ++ rest).head?, isBlank c = false := by
  intro c hc
  obtain ⟨d, name, hname⟩ := List.exists_cons_of_ne_nil entry.name_some
  refine entry.position_visible c ?_
  rw [position, hname, List.cons_append] at hc ⊢
  obtain rfl := Option.some.inj hc
  exact List.mem_cons_self

theorem gap_head (entry : Entry line) :
    ∀ c ∈ (entry.gap ++ entry.message).head?, (!isBlank c) = false := by
  intro c hc
  obtain ⟨d, gap, hgap⟩ := List.exists_cons_of_ne_nil entry.gap_isGap.some
  rw [hgap, List.cons_append] at hc
  obtain rfl := Option.some.inj hc
  rw [allBlank_iff.mp entry.gap_isGap.all d (hgap ▸ List.mem_cons_self)]
  rfl

/-- The first gap of an entry ends at the first visible character, and its position
at the next blank. -/
theorem stretches (entry : Entry line) : line.takeWhile isBlank = entry.indent
    ∧ (trimStart line).takeWhile (!isBlank ·) = entry.position
    ∧ (trimStart line).dropWhile (!isBlank ·) = entry.gap ++ entry.message := by
  have hindent := allBlank_iff.mp entry.indent_isGap.all
  have hvisible : ∀ c ∈ entry.position, (!isBlank c) = true :=
    fun c hc => by rw [entry.position_visible c hc]; rfl
  have hhead := entry.position_head (entry.gap ++ entry.message)
  have htrim : trimStart line = entry.position ++ (entry.gap ++ entry.message) :=
    (congrArg trimStart entry.line_eq_position).trans (dropWhile_stretch hindent hhead)
  refine ⟨?_, ?_, ?_⟩
  · exact (congrArg _ entry.line_eq_position).trans (takeWhile_stretch hindent hhead)
  · rw [htrim, takeWhile_stretch hvisible entry.gap_head]
  · rw [htrim, dropWhile_stretch hvisible entry.gap_head]

/-- Two splits of an entry differ only in where the second gap ends. -/
theorem parts_eq (entry other : Entry line) : other.indent = entry.indent
    ∧ other.name = entry.name ∧ other.number = entry.number
    ∧ other.gap ++ other.message = entry.gap ++ entry.message := by
  obtain ⟨hindent, hposition, hrest⟩ := entry.stretches
  obtain ⟨hindent', hposition', hrest'⟩ := other.stretches
  obtain ⟨hname, hnumber⟩ := position_inj other.number_isNumber entry.number_isNumber
    (hposition'.symm.trans hposition)
  exact ⟨hindent'.symm.trans hindent, hname, hnumber, hrest'.symm.trans hrest⟩

end Entry

/-- The message of an entry is found, however the entry is split. -/
theorem loggedMessage?_of_entry (entry : Entry line) :
    loggedMessage? line = some (trim entry.message) := by
  obtain ⟨-, hposition, hrest⟩ := entry.stretches
  have hindent : messageAfterBlanks? line = some (trimStart line) :=
    messageAfterBlanks?_eq_some_iff.mpr ⟨_, _, entry.indent_isGap, entry.line_eq, rfl⟩
  have hgap : messageAfterBlanks? (entry.gap ++ entry.message)
      = some (trimStart (entry.gap ++ entry.message)) :=
    messageAfterBlanks?_eq_some_iff.mpr ⟨_, _, entry.gap_isGap, rfl, rfl⟩
  have hword : isTestPosition entry.position = true :=
    isTestPosition_iff.mpr ⟨_, _, entry.name_some, entry.number_isNumber, rfl⟩
  have htrim : trim (trimStart (entry.gap ++ entry.message)) = trim entry.message := by
    rw [trimStart_append entry.gap_isGap.all, trim, trimStart_trimStart, trim]
  simp only [loggedMessage?, hindent, Option.bind_eq_bind, Option.bind_some, hposition, hrest,
    hword, if_pos, hgap, Option.map_some, htrim]

/-- The blanks that a text begins with are a gap, if there are any. -/
theorem IsGap.takeWhile {gap rest : List Char} (isGap : IsGap gap) :
    IsGap ((gap ++ rest).takeWhile isBlank) := by
  refine ⟨?_, allBlank_iff.mpr fun c hc => List.mem_takeWhile_imp hc⟩
  rw [List.takeWhile_append_of_pos (allBlank_iff.mp isGap.all)]
  exact List.append_ne_nil_of_left_ne_nil isGap.some _

/-- An entry whose second gap holds all the blanks there are is split greedily. -/
theorem Entry.isGreedy_of_gap {entry : Entry line}
    (hgap : entry.gap = (entry.gap ++ entry.message).takeWhile isBlank) : entry.IsGreedy := by
  intro other
  obtain ⟨hindent, hname, hnumber, hrest⟩ := entry.parts_eq other
  refine ⟨hindent ▸ le_rfl, hname ▸ le_rfl, hnumber ▸ le_rfl, ?_⟩
  rw [hgap, ← hrest, List.takeWhile_append_of_pos (allBlank_iff.mp other.gap_isGap.all),
    List.length_append]
  exact Nat.le_add_right _ _

/-- A message is found only in an entry, and an entry can be split greedily. -/
theorem exists_greedy (hlogged : loggedMessage? line = some message) :
    ∃ entry : Entry line, entry.IsGreedy := by
  simp only [loggedMessage?, Option.bind_eq_bind, Option.bind_eq_some_iff] at hlogged
  obtain ⟨text, hindent, hmessage⟩ := hlogged
  split at hmessage
  case isFalse => cases hmessage
  case isTrue hword =>
    obtain ⟨found, hfound, -⟩ := Option.map_eq_some_iff.mp hmessage
    obtain ⟨gap, rest, hgap, hline, rfl⟩ := messageAfterBlanks?_eq_some_iff.mp hindent
    obtain ⟨gap', rest', hgap', hrest, -⟩ := messageAfterBlanks?_eq_some_iff.mp hfound
    obtain ⟨name, number, hname, hnumber, hposition⟩ := isTestPosition_iff.mp hword
    have hvisible : ∀ c ∈ name, isBlank c = false := by
      intro c hc
      have hmem : c ∈ (trimStart line).takeWhile (!isBlank ·) :=
        hposition ▸ List.mem_append_left _ hc
      simpa using List.mem_takeWhile_imp hmem
    have hsplit : line = line.takeWhile isBlank ++ (name ++ ("_test.go:".toList ++ (number
        ++ ':' :: ((gap' ++ rest').takeWhile isBlank ++ (gap' ++ rest').dropWhile isBlank)))) := by
      have hafter : trimStart line
          = (name ++ ("_test.go:".toList ++ (number ++ [':']))) ++ (gap' ++ rest') := by
        rw [← hposition, ← hrest, List.takeWhile_append_dropWhile]
      calc line = line.takeWhile isBlank ++ trimStart line :=
            List.takeWhile_append_dropWhile.symm
        _ = _ := by rw [hafter, List.takeWhile_append_dropWhile]; simp
    refine ⟨⟨_, name, number, _, _, hline ▸ hgap.takeWhile, hname, hvisible, hnumber,
      hgap'.takeWhile, hsplit⟩, Entry.isGreedy_of_gap ?_⟩
    rw [List.takeWhile_append_dropWhile]

/-- The message of a line is the one of its entry. -/
theorem loggedMessage?_eq_some_iff : loggedMessage? line = some message ↔
    ∃ entry : Entry line, entry.IsGreedy ∧ message = trim entry.message := by
  constructor
  · intro hlogged
    obtain ⟨entry, greedy⟩ := exists_greedy hlogged
    exact ⟨entry, greedy, Option.some.inj (hlogged.symm.trans (loggedMessage?_of_entry entry))⟩
  · rintro ⟨entry, -, rfl⟩
    exact loggedMessage?_of_entry entry

theorem loggedMessage?_eq_none_iff : loggedMessage? line = none ↔ ¬ IsEntry line := by
  constructor
  · rintro hnone ⟨entry⟩
    cases hnone.symm.trans (loggedMessage?_of_entry entry)
  · intro hnot
    refine Option.eq_none_iff_forall_ne_some.mpr fun message hlogged => hnot ?_
    exact (exists_greedy hlogged).nonempty

-- ============================================================== the causes

/-- The message of an assertion is the line that is reached from the first mention of
an error. -/
theorem assertionMessage?_eq_some_iff : assertionMessage? stdout = some message ↔
    ∃ before gap line after, stdout = before ++ ("Error:".toList ++ (gap ++ (line ++ after)))
      ∧ (∀ before' after', stdout = before' ++ ("Error:".toList ++ after') →
        before.length ≤ before'.length)
      ∧ allBlank gap = true ∧ (∀ c ∈ (line ++ after).head?, isBlank c = false) ∧ '\n' ∉ line
      ∧ (∀ c ∈ after.head?, c = '\n') ∧ message = trim line := by
  rw [assertionMessage?, Option.map_eq_some_iff]
  constructor
  · rintro ⟨⟨before, rest⟩, hsplit, rfl⟩
    obtain ⟨rfl, hfirst⟩ := (splitOnce?_eq_some_iff (by decide)).mp hsplit
    have hline := List.takeWhile_append_dropWhile (p := (· ≠ '\n')) (l := trimStart rest)
    refine ⟨before, rest.takeWhile isBlank, (trimStart rest).takeWhile (· ≠ '\n'),
      (trimStart rest).dropWhile (· ≠ '\n'), ?_, hfirst, ?_, ?_, ?_, ?_, rfl⟩
    · rw [hline, trimStart, List.takeWhile_append_dropWhile]
    · exact allBlank_iff.mpr fun c hc => List.mem_takeWhile_imp hc
    · rw [hline]
      exact head_dropWhile isBlank rest
    · exact fun hfeed => by simpa using List.mem_takeWhile_imp hfeed
    · simpa using head_dropWhile (· ≠ '\n') (trimStart rest)
  · rintro ⟨before, gap, line, after, rfl, hfirst, hgap, hvisible, hline, hafter, rfl⟩
    refine ⟨(before, gap ++ (line ++ after)), (splitOnce?_eq_some_iff (by decide)).mpr
      ⟨rfl, hfirst⟩, ?_⟩
    have htrim : trimStart (gap ++ (line ++ after)) = line ++ after :=
      dropWhile_stretch (allBlank_iff.mp hgap) hvisible
    dsimp only
    rw [htrim, takeWhile_stretch]
    · simpa using fun c hc => ne_of_mem_of_not_mem hc hline
    · simpa using hafter

theorem assertionMessage?_eq_none_iff : assertionMessage? stdout = none ↔ ¬ MentionsError stdout := by
  rw [assertionMessage?, Option.map_eq_none_iff, MentionsError, ← occurs_iff, occurs,
    Option.not_isSome_iff_eq_none]

theorem panics_iff : beginsWith "panic:".toList (trim line) = true ↔ Panics line := by
  rw [beginsWith, Option.isSome_iff_exists]
  exact exists_congr fun rest => after?_eq_some_iff.trans eq_comm

/-- The message of a panic is the first line that reports one. -/
theorem panicMessage?_eq_some_iff : panicMessage? stdout = some message ↔
    ∃ before line after, lines stdout = before ++ line :: after ∧ Panics line
      ∧ (∀ other ∈ before, ¬ Panics other) ∧ message = trim line := by
  rw [panicMessage?, List.find?_map, Option.map_eq_some_iff]
  simp only [List.find?_eq_some_iff_append, Function.comp_apply, panics_iff, Bool.not_eq_true',
    Bool.eq_false_iff, Ne]
  constructor
  · rintro ⟨line, ⟨hpanics, before, after, hlines, hfirst⟩, rfl⟩
    exact ⟨before, line, after, hlines, hpanics, hfirst, rfl⟩
  · rintro ⟨before, line, after, hlines, hpanics, hfirst, rfl⟩
    exact ⟨line, ⟨hpanics, before, after, hlines, hfirst⟩, rfl⟩

theorem panicMessage?_eq_none_iff :
    panicMessage? stdout = none ↔ ∀ line ∈ lines stdout, ¬ Panics line := by
  simp only [panicMessage?, List.find?_eq_none, List.forall_mem_map, panics_iff]

/-- The logged message is the one of the first entry. -/
theorem findSome?_loggedMessage?_eq_some_iff :
    (lines stdout).findSome? loggedMessage? = some message ↔
      ∃ before line after, lines stdout = before ++ line :: after
        ∧ (∃ entry : Entry line, entry.IsGreedy ∧ message = trim entry.message)
        ∧ ∀ other ∈ before, ¬ IsEntry other := by
  simp only [List.findSome?_eq_some_iff, loggedMessage?_eq_some_iff, loggedMessage?_eq_none_iff]

theorem findSome?_loggedMessage?_eq_none_iff :
    (lines stdout).findSome? loggedMessage? = none ↔ ∀ line ∈ lines stdout, ¬ IsEntry line := by
  simp only [List.findSome?_eq_none_iff, loggedMessage?_eq_none_iff]

/-- What the three readers find, in their order, is the cause. -/
theorem cause_iff : Cause stdout message ↔
    message = (((assertionMessage? stdout).or (panicMessage? stdout)).or
      ((lines stdout).findSome? loggedMessage?)).getD missingMessage := by
  constructor
  · intro cause
    cases cause with
    | assertion mention first blank visible within ends =>
        rw [assertionMessage?_eq_some_iff.mpr
          ⟨_, _, _, _, mention, first, blank, visible, within, ends, rfl⟩]
        rfl
    | panic unmentioned found panics first =>
        rw [assertionMessage?_eq_none_iff.mpr unmentioned,
          panicMessage?_eq_some_iff.mpr ⟨_, _, _, found, panics, first, rfl⟩]
        rfl
    | logged unmentioned calm found entry greedy first =>
        rw [assertionMessage?_eq_none_iff.mpr unmentioned, panicMessage?_eq_none_iff.mpr calm,
          findSome?_loggedMessage?_eq_some_iff.mpr
            ⟨_, _, _, found, ⟨entry, greedy, rfl⟩, first⟩]
        rfl
    | missing unmentioned calm unlogged =>
        rw [assertionMessage?_eq_none_iff.mpr unmentioned, panicMessage?_eq_none_iff.mpr calm,
          findSome?_loggedMessage?_eq_none_iff.mpr unlogged]
        rfl
  · rintro rfl
    cases hasserted : assertionMessage? stdout with
    | some asserted =>
        obtain ⟨before, gap, line, after, mention, first, blank, visible, within, ends, rfl⟩ :=
          assertionMessage?_eq_some_iff.mp hasserted
        exact .assertion mention first blank visible within ends
    | none =>
        have unmentioned := assertionMessage?_eq_none_iff.mp hasserted
        cases hpanicked : panicMessage? stdout with
        | some panicked =>
            obtain ⟨before, line, after, found, panics, first, rfl⟩ :=
              panicMessage?_eq_some_iff.mp hpanicked
            exact .panic unmentioned found panics first
        | none =>
            have calm := panicMessage?_eq_none_iff.mp hpanicked
            cases hlogged : (lines stdout).findSome? loggedMessage? with
            | some logged =>
                obtain ⟨before, line, after, found, ⟨entry, greedy, rfl⟩, first⟩ :=
                  findSome?_loggedMessage?_eq_some_iff.mp hlogged
                exact .logged unmentioned calm found entry greedy first
            | none =>
                exact .missing unmentioned calm
                  (findSome?_loggedMessage?_eq_none_iff.mp hlogged)

/-- The message is one line, and it stands in the output unless nothing was found
there. -/
theorem Cause.within_line (cause : Cause stdout message) :
    '\n' ∉ message ∧ (message = missingMessage ∨ message <:+: stdout) := by
  have hpart {part line : List Char} (hpart : part <:+: line) (hline : line ∈ lines stdout) :
      '\n' ∉ trim part ∧ (trim part = missingMessage ∨ trim part <:+: stdout) := by
    obtain ⟨hinside, hfeed⟩ := infix_of_mem_lines hline
    have htrim := (infix_trim part).trans hpart
    exact ⟨fun hmem => hfeed (htrim.subset hmem), .inr (htrim.trans hinside)⟩
  have hmem {before after : List (List Char)} {line : List Char}
      (found : lines stdout = before ++ line :: after) : line ∈ lines stdout := by
    simp [found]
  cases cause with
  | @assertion before gap line after mention _ _ _ within _ =>
      refine ⟨fun hfeed => within ((infix_trim line).subset hfeed), .inr ?_⟩
      exact (infix_trim line).trans ⟨before ++ ("Error:".toList ++ gap), after, by simp [mention]⟩
  | panic _ found _ _ => exact hpart (List.infix_refl _) (hmem found)
  | logged _ _ found entry _ _ => exact hpart entry.message_suffix.isInfix (hmem found)
  | missing => exact ⟨by decide, .inl rfl⟩

/-- A message is taken from a test's output exactly when a test failed, and it is
what the output says about the cause: one line, which stands in the output unless
it is the fixed text for a cause that is not given. -/
theorem failureMessage?_cause (stdout : List Char) :
    (failureMessage? stdout = none ↔ ¬ failMarker <:+: stdout)
      ∧ (∀ message, failureMessage? stdout = some message ↔
          failMarker <:+: stdout ∧ Cause stdout message)
      ∧ (∀ message, failureMessage? stdout = some message →
          '\n' ∉ message ∧ (message = missingMessage ∨ message <:+: stdout)) := by
  have hsome (message : List Char) : failureMessage? stdout = some message ↔
      failMarker <:+: stdout ∧ Cause stdout message := by
    rw [failureMessage?, cause_iff, ← occurs_iff]
    split
    · next hfailed => rw [Option.some.injEq, eq_comm, and_iff_right hfailed]
    · next hfailed => exact iff_of_false nofun fun h => hfailed h.1
  refine ⟨?_, hsome, fun message hmessage => ((hsome message).mp hmessage).2.within_line⟩
  rw [failureMessage?, ← occurs_iff]
  split
  · next hfailed => exact iff_of_false nofun (not_not_intro hfailed)
  · next hfailed => exact iff_of_true rfl hfailed

/-- A failure that is logged twice, with a position in the first message too. -/
theorem failureMessage?_cause_logged :
    let stdout := "--- FAIL: T\r\n  a_test.go:12: b_test.go:7:  got 1 \r\n  a_test.go:13: got 2".toList
    failureMessage? stdout = some "b_test.go:7:  got 1".toList
      ∧ "b_test.go:7:  got 1".toList <:+: stdout := by
  intro stdout
  have hmessage : failureMessage? stdout = some "b_test.go:7:  got 1".toList := by decide +kernel
  rcases ((failureMessage?_cause stdout).2.2 _ hmessage).2 with hmissing | hinside
  · exact absurd hmissing (by decide +kernel)
  · exact ⟨hmessage, hinside⟩

end Assay.TestRun
